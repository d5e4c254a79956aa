import LibSshpp.Posix.BackedFiles
import LibSshpp.SftpServer.EntryRequests
import LibSshpp.SftpServer.HandleRelease
import LibSshpp.SftpServer.OwnResources
import LibSshpp.SftpServer.ReadOnly

/-!
WRITE requests. A request is refused, or gets to `pwrite` on the file behind its handle;
there the kernel fails, or stores some of the bytes, and then the answer is that all is well.
-/

set_option autoImplicit false
set_option relaxedAutoImplicit false

namespace LibSshpp.SftpServer

open Posix Sftp Program

/-! ### Files and their inodes -/

/-- The file system is backed, and everything that is open for writing has its inode. -/
structure World.Backed (world : World) : Prop where
  fs : world.fs.Backed
  files : ∀ fd file, (fd, file) ∈ world.fds → file.flags.access ≠ .readOnly →
    file.ino < world.fs.inodes.length

theorem World.Backed.transfer {world after : World} (h : world.Backed)
    (hfs : KeepsInodes world.fs after.fs) (hfds : after.fds ⊆ world.fds) : after.Backed :=
  ⟨hfs.backed h.fs, fun fd file hmem haccess ↦
    (h.files fd file (hfds hmem) haccess).trans_le hfs.count⟩

theorem World.Backed.same {world after : World} (h : world.Backed) (hfs : after.fs = world.fs)
    (hfds : after.fds = world.fds) : after.Backed :=
  h.transfer (hfs ▸ KeepsInodes.refl world.fs) (hfds ▸ List.Subset.refl _)

theorem perform_backed {α : Type} {call : PosixCall} {op : World → Except Errno (Done α)}
    (hop : ∀ world done, op world = .ok done → KeepsInodes world.fs done.fs) :
    Keeps World.Backed (perform call op) :=
  perform_triple (fun _ _ h ↦ h.same rfl rfl)
    fun world _ h hdone ↦ h.transfer (hop world _ hdone) (List.Subset.refl _)

/-- A call that changes nothing. -/
theorem perform_backed_same {α : Type} {call : PosixCall} {op : World → Except Errno (Done α)}
    (hop : ∀ world done, op world = .ok done → done.fs = world.fs) :
    Keeps World.Backed (perform call op) :=
  perform_backed fun world done h ↦ hop world done h ▸ KeepsInodes.refl world.fs

theorem onDescriptor_eq_ok {α : Type} {fd : ℤ} {op : OpenFile → Except Errno (Done α)}
    {world : World} {done : Done α} (h : onDescriptor fd op world = .ok done) :
    ∃ file, world.fds.lookup fd = some file ∧ op file = .ok done := by
  unfold onDescriptor at h
  split at h
  · exact nomatch h
  · next file hfile => exact ⟨file, hfile, h⟩

theorem closeHandle_backed (entry : HandleEntry) : Keeps World.Backed (closeHandle entry) := by
  unfold closeHandle
  refine Keeps.ite (fun _ ↦ ?_) fun _ ↦ ?_
  · exact Keeps.ite (fun _ _ h ↦ h.same rfl rfl) fun _ ↦ Keeps.pure _
  · refine Keeps.ite (fun _ world h ↦ ?_) fun _ ↦ Keeps.pure _
    exact h.transfer (KeepsInodes.refl _) (List.filter_subset_self _)

def backedStages : Stages where
  pending := World.Backed
  fresh _ _ := World.Backed
  holding _ := World.Backed
  granted _ := World.Backed
  reading := World.Backed
  named _ := True
  done := World.Backed

theorem backedRules (table : HandleTable) (options : Options) (message : ClientMessage)
    (start : World) : RequestRules table options message start backedStages where
  canonical path := by
    intro world h
    unfold weaklyCanonical
    split <;> exact h.same rfl rfl
  reply _ _ _ := fun _ h ↦ h.same rfl rfl
  lstat _ := keepsAt (perform_backed_same fun _ _ ↦ FileSystem.fs_of_statPath)
  stat _ := keepsAt (perform_backed_same fun _ _ ↦ FileSystem.fs_of_statPath)
  readlink _ := keepsAt (perform_backed_same fun _ _ ↦ FileSystem.fs_of_readlink)
  statEntry _ _ := keepsAt (perform_backed_same fun _ _ ↦ FileSystem.fs_of_statPath)
  fstat _ _ := keepsAt (perform_backed_same fun _ _ ↦
    fs_of_onDescriptor fun _ _ h ↦ by rw [← Except.ok.inj h])
  pread _ _ _ _ := keepsAt (perform_backed_same fun _ _ ↦
    fs_of_onDescriptor fun _ _ h ↦ FileSystem.fs_of_pread h)
  pwrite _ _ _ _ _ _ := keepsAt (perform_backed fun _ _ h ↦ by
    obtain ⟨file, -, hwrite⟩ := onDescriptor_eq_ok h
    exact FileSystem.keepsInodes_pwrite hwrite)
  read _ _ _ _ _ h := h.1
  readdir _ _ _ _ := readdir_triple (fun _ h ↦ ⟨h.same rfl rfl, fun _ _ ↦ trivial⟩)
    fun _ _ h _ ↦ ⟨h.same rfl rfl, fun _ _ ↦ trivial⟩
  lstatChild _ _ _ _ _ _ :=
    perform_backed_same fun _ _ ↦ FileSystem.fs_of_statPath
  collect _ _ _ := fun _ h ↦ h.same rfl rfl
  listed _ h := h
  openFile _ _ _ := openFile_triple (fun _ _ h ↦ h.1.same rfl rfl) fun world done h hdone ↦ by
    obtain ⟨hkeeps, hnew⟩ := FileSystem.keepsInodes_openFile hdone
    refine ⟨hkeeps.backed h.1.fs, fun fd file hmem haccess ↦ ?_⟩
    rcases List.mem_cons.mp hmem with heq | hmem
    · obtain ⟨-, rfl⟩ := Prod.mk.inj heq
      exact hnew h.1.fs haccess
    · exact (h.1.files fd file hmem haccess).trans_le hkeeps.count
  opendir _ := opendir_triple (fun _ _ h ↦ h.1.same rfl rfl) fun _ _ h hdone ↦
    h.1.same (FileSystem.fs_of_opendir hdone) rfl
  newAddress _ _ := fun _ h ↦ h.same rfl rfl
  alloc _ := alloc_triple (fun _ h ↦ h.same rfl rfl) fun _ _ h _ _ ↦ h.same rfl rfl
  abandon entry := closeHandle_backed entry
  grant _ := fun _ h ↦ h.same rfl rfl
  release _ entry _ := by
    refine keepsAt (Keeps.bind (fun world h ↦ ?_) fun _ ↦ closeHandle_backed entry)
    unfold HandleTable.sftpHandleRemove
    split <;> exact h.same rfl rfl
  unlink _ _ _ := keepsAt (perform_backed fun _ _ h ↦ FileSystem.keepsInodes_unlink h)
  mkdir _ _ _ _ := keepsAt (perform_backed fun _ _ h ↦ FileSystem.keepsInodes_mkdir h)
  rmdir _ _ _ _ := keepsAt (perform_backed fun _ _ h ↦ FileSystem.keepsInodes_rmdir h)
  rename _ _ _ _ _ _ := keepsAt (perform_backed fun _ _ h ↦ FileSystem.keepsInodes_rename h)
  symlink _ _ _ _ := keepsAt (perform_backed fun _ _ h ↦ FileSystem.keepsInodes_symlink h)

theorem serveMessage_backed (table : HandleTable) (options : Options) (message : ClientMessage) :
    Keeps World.Backed (serveMessage table options message) := by
  intro world h
  have hreceived : (world.log (.received message)).Backed := h.same rfl rfl
  have hserved := (backedRules table options message _).request _ ⟨hreceived, quiet_refl _⟩
  exact World.Backed.same hserved rfl rfl

theorem singleFile_backed (faults : List Fault) : (World.begin singleFile [] [] faults).Backed where
  fs loc ino hget := by
    have hmem : (⟨loc, .file ino⟩ : (_ : Loc) × Node) ∈ singleFile.tree.nodes.entries :=
      AList.mem_lookup_iff.mp hget
    simp only [singleFile, List.mem_cons, List.not_mem_nil, Sigma.mk.injEq, heq_eq_eq, reduceCtorEq,
      and_false, false_or, or_false, Node.file.injEq] at hmem
    rw [hmem.2]
    exact Nat.lt_add_one 2
  files _ _ h := absurd h List.not_mem_nil

/-! ### One WRITE request -/

/-- The length of the payload: `ssh_string_len` has 32 bits. -/
def ClientMessage.payloadLength (message : ClientMessage) : UInt32 :=
  (message.data.getD []).length.toUInt32

/-- The payload of a WRITE request. -/
def ClientMessage.payload (message : ClientMessage) : Bytes :=
  (message.data.getD []).take message.payloadLength.toNat

/-- The check against `max_file_size`, with the sum modulo 2^64. -/
def ExceedsLimit (options : Options) (message : ClientMessage) : Prop :=
  options.maxFileSize ≠ 0 ∧
    message.offset + message.payloadLength.toUInt64 > options.maxFileSize

instance (options : Options) (message : ClientMessage) : Decidable (ExceedsLimit options message) :=
  inferInstanceAs (Decidable (_ ∧ _))

/-- What a file holds. -/
def World.contents (world : World) (file : OpenFile) : Bytes := (world.fs.inode file.ino).data

/-- Where a write to a file starts. -/
def World.writeStart (world : World) (file : OpenFile) (message : ClientMessage) : ℕ :=
  if file.flags.append then (world.contents file).length
  else message.offset.toInt64.toNatClampNeg

/-- An offset that is not negative as an `off_t` is what it was as a 64-bit number. -/
theorem toNatClampNeg_of_nonneg {offset : UInt64} (h : ¬ offset.toInt64 < 0) :
    offset.toInt64.toNatClampNeg = offset.toNat ∧ offset.toNat < 2 ^ 63 := by
  have hvalue : offset.toInt64.toInt = (offset.toNat : ℤ).bmod (2 ^ 64) := by
    rw [← Int64.toInt_toBitVec]
    change offset.toBitVec.toInt = _
    rw [BitVec.toInt_eq_toNat_bmod]
    rfl
  have hnonneg : ¬ offset.toInt64.toInt < 0 := fun hneg ↦ h (Int64.lt_iff_toInt_lt.mpr hneg)
  have hlt := offset.toNat_lt
  change offset.toInt64.toInt.toNat = _ ∧ _
  rw [hvalue, Int.bmod_def] at hnonneg ⊢
  omega

/-- The bytes of the payload that the kernel stores. -/
def World.storedBytes (world : World) (message : ClientMessage) : Bytes :=
  message.payload.take (world.fault.limit message.payload.length)

/-- The request gets to a `pwrite` on the file that succeeds. -/
structure WritesTo (table : HandleTable) (options : Options) (world : World)
    (message : ClientMessage) (file : OpenFile) : Prop where
  writable : options.readOnly = false
  held : ∃ entry, Held table message world entry ∧ entry.isDir = false ∧
    world.fds.lookup entry.fd = some file
  within : ¬ ExceedsLimit options message
  passes : world.fault.fails = false
  access : file.flags.access ≠ .readOnly
  offset : ¬ message.offset.toInt64 < 0

section Write

variable {table : HandleTable} {options : Options} {message : ClientMessage} {world : World}

theorem WritesTo.unique {file other : OpenFile} (h : WritesTo table options world message file)
    (hother : WritesTo table options world message other) : file = other := by
  obtain ⟨entry, hheld, -, hfile⟩ := h.held
  obtain ⟨entry', hheld', -, hfile'⟩ := hother.held
  obtain rfl := Option.some.inj (hheld.symm.trans hheld')
  exact Option.some.inj (hfile.symm.trans hfile')

/-- A file that is written to has its inode. -/
theorem WritesTo.backed {file : OpenFile} (h : WritesTo table options world message file)
    (hbacked : world.Backed) : file.ino < world.fs.inodes.length := by
  obtain ⟨entry, -, -, hfile⟩ := h.held
  exact hbacked.files entry.fd file (mem_of_lookup hfile) h.access

theorem writesTo_log (event : Event) (file : OpenFile) :
    WritesTo table options (world.log event) message file ↔
      WritesTo table options world message file :=
  ⟨fun h ↦ ⟨h.writable, h.held, h.within, h.passes, h.access, h.offset⟩,
    fun h ↦ ⟨h.writable, h.held, h.within, h.passes, h.access, h.offset⟩⟩

theorem serveRequest_of_write (table : HandleTable) (options : Options)
    (htype : message.type = fxpWrite) :
    serveRequest table options message = serveWrite table options message := by
  unfold serveRequest
  simp only [htype]
  rfl

/-- The descriptor of a handle is reached unless the request is refused before. -/
theorem serveWrite_of_held (hwritable : options.readOnly = false) {entry : HandleEntry}
    (hheld : Held table message world entry) (hfile : entry.isDir = false) :
    serveWrite table options message world =
      (if ExceedsLimit options message then replyStatus .permissionDenied "file too large"
      else do
        match ← pwrite entry.fd message.payload message.offset.toInt64 with
        | .error error => replyStatus .failure (strerror error)
        | .ok _ => replyStatus .ok "") world := by
  have hlookup : table.sftpHandle message.handle world = (some entry, world) :=
    Prod.ext hheld rfl
  have hnot : ¬ entry.isDir = true := by
    rw [hfile]
    exact Bool.noConfusion
  unfold serveWrite
  rw [bind_of_eq (denyIfReadOnly_of_writable hwritable world)]
  change (table.sftpHandle message.handle >>= _) world = _
  rw [bind_of_eq hlookup]
  exact congrFun (if_neg hnot) world

/-- The world after a request that does not get to write. -/
def RefusedIn (world after : World) (answer : Reply) : Prop :=
  after = world.log (.replied answer) ∨
    ∃ call, after = (world.called call world.fs []).log (.replied answer)

theorem pwrite_of_file (data : Bytes) (offset : Int64) (hpasses : world.fault.fails = false)
    {fd : ℤ} {file : OpenFile} (hfile : world.fds.lookup fd = some file) :
    pwrite fd data offset world =
      match world.fs.pwrite file (data.take (world.fault.limit data.length)) offset with
      | .error error => (.error error, world.called (.pwrite fd) world.fs [])
      | .ok done => (.ok done.value, world.called (.pwrite fd) done.fs done.touched) := by
  have hop : onDescriptor fd (fun file ↦ world.fs.pwrite file
      (data.take (world.fault.limit data.length)) offset) world =
        world.fs.pwrite file (data.take (world.fault.limit data.length)) offset := by
    rw [onDescriptor, hfile]
  unfold pwrite
  rw [perform_of_passes hpasses, hop]
  cases world.fs.pwrite file (data.take (world.fault.limit data.length)) offset <;> rfl

theorem pwrite_of_no_file (data : Bytes) (offset : Int64) {fd : ℤ}
    (hfile : world.fds.lookup fd = none) :
    ∃ error, pwrite fd data offset world =
      (.error error, world.called (.pwrite fd) world.fs []) := by
  unfold pwrite
  cases hpasses : world.fault.fails with
  | true => exact perform_of_fails hpasses
  | false =>
    rw [perform_of_passes hpasses, onDescriptor, hfile]
    exact ⟨_, rfl⟩

theorem serveWrite_stores {file : OpenFile} (h : WritesTo table options world message file) :
    ∃ call, serveWrite table options message world =
      ((), (world.called call (world.fs.setData file.ino (FileSystem.overwrite (world.contents file)
        (world.writeStart file message) (world.storedBytes message))) [file.loc]).log
          (.replied (.status .ok ""))) := by
  obtain ⟨entry, hheld, hfile, hlookup⟩ := h.held
  have hcall := pwrite_of_file message.payload message.offset.toInt64 h.passes hlookup
  rw [FileSystem.pwrite_of_writable _ h.access h.offset] at hcall
  refine ⟨.pwrite entry.fd, ?_⟩
  rw [serveWrite_of_held h.writable hheld hfile, if_neg h.within, bind_of_eq hcall]
  rfl

/-- A `pwrite` that does not come off. -/
theorem refused_of_pwrite {entry : HandleEntry} (hwritable : options.readOnly = false)
    (hheld : Held table message world entry) (hfile : entry.isDir = false)
    (hwithin : ¬ ExceedsLimit options message) {error : Errno}
    (hcall : pwrite entry.fd message.payload message.offset.toInt64 world =
      (.error error, world.called (.pwrite entry.fd) world.fs [])) :
    ∃ code text after, code ≠ .ok ∧ serveWrite table options message world = ((), after) ∧
      RefusedIn world after (.status code text) := by
  refine ⟨.failure, strerror error, _, by decide, ?_, Or.inr ⟨.pwrite entry.fd, rfl⟩⟩
  rw [serveWrite_of_held hwritable hheld hfile, if_neg hwithin, bind_of_eq hcall]
  rfl

/-- Within the limit and on an open file, a request that does not write has a `pwrite` that
does not come off. -/
theorem pwrite_of_not_writesTo {entry : HandleEntry} (hwritable : options.readOnly = false)
    (hheld : Held table message world entry) (hfile : entry.isDir = false)
    (hwithin : ¬ ExceedsLimit options message)
    (hnone : ∀ file, ¬ WritesTo table options world message file) :
    ∃ error, pwrite entry.fd message.payload message.offset.toInt64 world =
      (.error error, world.called (.pwrite entry.fd) world.fs []) := by
  cases hlookup : world.fds.lookup entry.fd with
  | none => exact pwrite_of_no_file message.payload message.offset.toInt64 hlookup
  | some file =>
    cases hpasses : world.fault.fails with
    | true => exact perform_of_fails hpasses
    | false =>
      have hcall := pwrite_of_file message.payload message.offset.toInt64 hpasses hlookup
      cases hpwrite : world.fs.pwrite file (world.storedBytes message)
          message.offset.toInt64 with
      | error error =>
        unfold World.storedBytes at hpwrite
        rw [hpwrite] at hcall
        exact ⟨error, hcall⟩
      | ok done =>
        obtain ⟨haccess, hoffset⟩ := FileSystem.pwrite_eq_ok hpwrite
        exact absurd ⟨hwritable, ⟨entry, hheld, hfile, hlookup⟩, hwithin, hpasses, haccess,
          hoffset⟩ (hnone file)

/-- A handle that is not one of an open file. -/
theorem refused_of_no_file (hwritable : options.readOnly = false)
    (hheld : ¬ ∃ entry, Held table message world entry ∧ entry.isDir = false) :
    ∃ code text after, code ≠ .ok ∧ serveWrite table options message world = ((), after) ∧
      RefusedIn world after (.status code text) := by
  refine ⟨.invalidHandle, "", _, by decide, ?_, Or.inl rfl⟩
  unfold serveWrite
  rw [bind_of_eq (denyIfReadOnly_of_writable hwritable world)]
  change (table.sftpHandle message.handle >>= _) world = _
  cases hlookup : (table.decode message.handle).bind world.slots with
  | none =>
    have hnothing : table.sftpHandle message.handle world = (none, world) :=
      Prod.ext hlookup rfl
    rw [bind_of_eq hnothing]
    rfl
  | some entry =>
    have hentry : table.sftpHandle message.handle world = (some entry, world) :=
      Prod.ext hlookup rfl
    have hdir : entry.isDir = true := by
      by_contra hfile
      exact hheld ⟨entry, hlookup, by simpa using hfile⟩
    rw [bind_of_eq hentry]
    exact congrFun (if_pos hdir) world

theorem serveWrite_refused (hnone : ∀ file, ¬ WritesTo table options world message file) :
    ∃ code text after, code ≠ .ok ∧ serveWrite table options message world = ((), after) ∧
      RefusedIn world after (.status code text) := by
  cases hwritable : options.readOnly with
  | true =>
    refine ⟨.permissionDenied, "read-only sftp root", _, by decide, ?_, Or.inl rfl⟩
    unfold serveWrite denyIfReadOnly
    rw [hwritable]
    rfl
  | false =>
    by_cases hheld : ∃ entry, Held table message world entry ∧ entry.isDir = false
    · obtain ⟨entry, hheld, hfile⟩ := hheld
      by_cases hlimit : ExceedsLimit options message
      · refine ⟨.permissionDenied, "file too large", _, by decide, ?_, Or.inl rfl⟩
        rw [serveWrite_of_held hwritable hheld hfile, if_pos hlimit]
        rfl
      · obtain ⟨error, hcall⟩ := pwrite_of_not_writesTo hwritable hheld hfile hlimit hnone
        exact refused_of_pwrite hwritable hheld hfile hlimit hcall
    · exact refused_of_no_file hwritable hheld

/-- A request that writes is answered with success, whatever the kernel stored. -/
theorem write_stores (htype : message.type = fxpWrite) {file : OpenFile}
    (h : WritesTo table options world message file) :
    answers table options message world = [.status .ok ""] ∧
      (serveMessage table options message world).2.fs =
        world.fs.setData file.ino (FileSystem.overwrite (world.contents file)
          (world.writeStart file message) (world.storedBytes message)) := by
  obtain ⟨call, hserve⟩ := serveWrite_stores ((writesTo_log (.received message) file).mpr h)
  rw [← serveRequest_of_write table options htype] at hserve
  exact answers_of_called call _ _ hserve

/-- Only the file that is written to changes. -/
theorem write_inode (htype : message.type = fxpWrite) (hbacked : world.Backed) {file : OpenFile}
    (h : WritesTo table options world message file) (ino : ℕ) :
    ((serveMessage table options message world).2.fs.inode ino).data =
      if ino = file.ino then FileSystem.overwrite (world.contents file)
        (world.writeStart file message) (world.storedBytes message)
      else (world.fs.inode ino).data := by
  rw [(write_stores htype h).2, FileSystem.inode_setData (h.backed hbacked)]

/-- A request that does not get to write is answered with a failure and changes nothing. -/
theorem write_refused (htype : message.type = fxpWrite)
    (hnone : ∀ file, ¬ WritesTo table options world message file) :
    (∃ code text, code ≠ .ok ∧ answers table options message world = [.status code text]) ∧
      (serveMessage table options message world).2.fs = world.fs := by
  obtain ⟨code, text, after, hcode, hserve, hafter⟩ := serveWrite_refused fun file h ↦
    hnone file ((writesTo_log (.received message) file).mp h)
  rw [← serveRequest_of_write table options htype] at hserve
  rcases hafter with rfl | ⟨call, rfl⟩
  · refine ⟨⟨code, text, hcode, answers_of_refused hserve⟩, ?_⟩
    exact congrArg (fun result : Unit × World ↦ result.2.fs) hserve
  · obtain ⟨hanswers, hfs⟩ := answers_of_called call _ _ hserve
    exact ⟨⟨code, text, hcode, hanswers⟩, hfs⟩

/-- A WRITE request leaves the descriptors and the handles. -/
theorem write_frame (htype : message.type = fxpWrite) :
    (serveMessage table options message world).2.fds = world.fds ∧
      (serveMessage table options message world).2.slots = world.slots := by
  have hrequest := serveRequest_of_write table options htype
  by_cases h : ∃ file, WritesTo table options world message file
  · obtain ⟨file, hfile⟩ := h
    obtain ⟨call, hserve⟩ := serveWrite_stores ((writesTo_log (.received message) file).mpr hfile)
    rw [← hrequest] at hserve
    exact ⟨congrArg (fun result : Unit × World ↦ result.2.fds) hserve,
      congrArg (fun result : Unit × World ↦ result.2.slots) hserve⟩
  · obtain ⟨code, text, after, -, hserve, hafter⟩ := serveWrite_refused fun file hfile ↦
      h ⟨file, (writesTo_log (.received message) file).mp hfile⟩
    rw [← hrequest] at hserve
    have hframe : after.fds = world.fds ∧ after.slots = world.slots := by
      rcases hafter with rfl | ⟨call, rfl⟩
      · exact ⟨rfl, rfl⟩
      · exact ⟨rfl, rfl⟩
    rw [← hframe.1, ← hframe.2]
    exact ⟨congrArg (fun result : Unit × World ↦ result.2.fds) hserve,
      congrArg (fun result : Unit × World ↦ result.2.slots) hserve⟩

end Write

end LibSshpp.SftpServer
