import LibSshpp.SftpServer.OwnResources

/-!
A read-only server changes nothing. The mutating requests are denied one by one, and an
OPEN request is denied on a mask of its flags; the mask covers every flag from which
`posix_open_flags` makes an access that writes, creates, truncates or appends.
-/

set_option autoImplicit false
set_option relaxedAutoImplicit false

namespace LibSshpp.Posix

/-- The flags ask for reading and nothing else. -/
def OpenFlags.ReadsOnly (flags : OpenFlags) : Prop :=
  flags.access = .readOnly ∧ flags.creat = false ∧ flags.trunc = false ∧ flags.append = false

namespace FileSystem

variable {fs : FileSystem}

theorem fs_of_statPath {follow : Bool} {path : Path} {done : Done Stat}
    (h : fs.statPath follow path = .ok done) : done.fs = fs := by
  unfold statPath at h
  split at h
  · exact nomatch h
  · split at h
    · exact nomatch h
    · rw [← Except.ok.inj h]

theorem fs_of_readlink {path : Path} {size : ℕ} {done : Done Bytes}
    (h : fs.readlink path size = .ok done) : done.fs = fs := by
  unfold readlink at h
  split at h
  · exact nomatch h
  · split at h
    · rw [← Except.ok.inj h]
    · exact nomatch h

theorem fs_of_opendir {path : Path} {done : Done DirStream} (h : fs.opendir path = .ok done) :
    done.fs = fs := by
  unfold opendir at h
  split at h
  · exact nomatch h
  · split_ifs at h
    rw [← Except.ok.inj h]

theorem fs_of_pread {file : OpenFile} {size : ℕ} {offset : Int64} {done : Done Bytes}
    (h : fs.pread file size offset = .ok done) : done.fs = fs := by
  unfold pread at h
  split_ifs at h
  rw [← Except.ok.inj h]

theorem fs_of_openExisting {loc : Loc} {flags : OpenFlags} (hflags : flags.ReadsOnly)
    {done : Done OpenFile} (h : fs.openExisting loc flags = .ok done) :
    done.fs = fs ∧ done.value.flags = flags := by
  rw [openExisting, if_neg (by simp [hflags.2.1])] at h
  split at h
  · exact nomatch h
  · split_ifs at h
    rw [← Except.ok.inj h]
    exact ⟨rfl, rfl⟩
  · rw [← Except.ok.inj h]
    exact ⟨if_neg (by simp [hflags.2.2.1]), rfl⟩
  · exact nomatch h

/-- Opening a file for reading only changes nothing. -/
theorem fs_of_openFile {path : Path} {flags : OpenFlags} (hflags : flags.ReadsOnly)
    {mode : UInt32} {done : Done OpenFile} (h : fs.openFile path flags mode = .ok done) :
    done.fs = fs ∧ done.value.flags = flags := by
  unfold openFile at h
  split at h
  · exact fs_of_openExisting hflags h
  · simp only [hflags.2.1, Bool.false_eq_true, false_and, if_false] at h
    exact nomatch h
  · exact nomatch h

end FileSystem

end LibSshpp.Posix

namespace LibSshpp.SftpServer

open Posix Sftp Program

theorem and_or_eq_zero_iff {x y z : UInt32} :
    x &&& (y ||| z) = 0 ↔ x &&& y = 0 ∧ x &&& z = 0 := by
  have hdistrib : x &&& (y ||| z) = (x &&& y) ||| (x &&& z) :=
    UInt32.toBitVec_inj.mp BitVec.and_or_distrib_left
  rw [hdistrib, UInt32.or_eq_zero_iff]

/-- An OPEN request that the mask lets pass is opened for reading only. -/
theorem posixOpenFlags_readsOnly {message : ClientMessage} (h : message.wantsWrite = false) :
    (posixOpenFlags message.flags).ReadsOnly := by
  have hmask : message.flags &&& (fxfWrite ||| fxfCreat ||| fxfTrunc ||| fxfAppend) = 0 := by
    simpa [ClientMessage.wantsWrite] using h
  have hbits : message.flags &&& fxfWrite = 0 ∧ message.flags &&& fxfCreat = 0 ∧
      message.flags &&& fxfTrunc = 0 ∧ message.flags &&& fxfAppend = 0 := by
    simpa only [and_or_eq_zero_iff, and_assoc] using hmask
  obtain ⟨hwrite, hcreat, htrunc, happend⟩ := hbits
  simp [OpenFlags.ReadsOnly, posixOpenFlags, hwrite, hcreat, htrunc, happend]

/-- What a read-only server keeps: the file system, and that all its files were opened for
reading only. -/
def OnlyReads (before world : World) : Prop :=
  world.fs = before.fs ∧
    Owned (fun file ↦ file.flags.ReadsOnly) (fun _ ↦ True) before world

def readOnlyStages (before : World) (start : World) : Stages where
  pending := OnlyReads before
  fresh resource path world := OnlyReads before world ∧ (resource.entry path 0).IsOwn before
  holding entry world := OnlyReads before world ∧ entry.IsOwn before
  granted _ := OnlyReads before
  reading world := OnlyReads before world ∧ world.slots = start.slots
  named _ := True
  done := OnlyReads before

section Calls

variable {before : World}

theorem OnlyReads.transfer {world after : World} (h : OnlyReads before world)
    (hfs : after.fs = world.fs) (hfds : after.fds = world.fds)
    (hstreams : after.streams = world.streams) (hslots : after.slots = world.slots) :
    OnlyReads before after :=
  ⟨hfs.trans h.1, h.2.transfer hfds hstreams hslots⟩

/-- The world after a call that changed nothing. -/
theorem OnlyReads.called {world : World} (h : OnlyReads before world) {fs : FileSystem}
    (hfs : fs = world.fs) (call : PosixCall) (touched : List Loc) :
    OnlyReads before (world.called call fs touched) :=
  h.transfer hfs rfl rfl rfl

theorem OnlyReads.log {world : World} (h : OnlyReads before world) (event : Event) :
    OnlyReads before (world.log event) :=
  h.transfer rfl rfl rfl rfl

theorem OnlyReads.dropFault {world : World} (h : OnlyReads before world) :
    OnlyReads before world.dropFault :=
  h.transfer rfl rfl rfl rfl

theorem perform_onlyReads {α : Type} {call : PosixCall} {op : World → Except Errno (Done α)}
    (hop : ∀ world done, op world = .ok done → done.fs = world.fs) :
    Keeps (OnlyReads before) (perform call op) :=
  perform_triple (fun _ _ h ↦ h.called rfl _ _)
    fun world done h hdone ↦ h.called (hop world done hdone) _ _

theorem fs_of_onDescriptor {α : Type} {fd : ℤ} {op : OpenFile → Except Errno (Done α)}
    {world : World} {done : Done α}
    (hop : ∀ file done, op file = .ok done → done.fs = world.fs)
    (h : onDescriptor fd op world = .ok done) : done.fs = world.fs := by
  unfold onDescriptor at h
  split at h
  · exact nomatch h
  · exact hop _ done h

/-- A program that leaves the file system alone and keeps the resources in order. -/
theorem onlyReads_of_owned {α : Type} {program : ServerM α} {pre : World → Prop}
    (hpre : ∀ world, pre world → world.fs = before.fs)
    (hfs : ∀ world, (program world).2.fs = world.fs)
    (howned : Triple pre program fun _ ↦
      Owned (fun file ↦ file.flags.ReadsOnly) (fun _ ↦ True) before) :
    Triple pre program fun _ ↦ OnlyReads before :=
  fun world h ↦ ⟨(hfs world).trans (hpre world h), howned world h⟩

theorem closeHandle_fs (entry : HandleEntry) (world : World) :
    (closeHandle entry world).2.fs = world.fs := by
  unfold closeHandle
  split_ifs <;> rfl

theorem remove_fs (table : HandleTable) (entry : HandleEntry) (world : World) :
    (table.sftpHandleRemove entry world).2.fs = world.fs := by
  unfold HandleTable.sftpHandleRemove
  split <;> rfl

end Calls

theorem readOnlyRules (table : HandleTable) {options : Options}
    (hreadOnly : options.readOnly = true) (message : ClientMessage) (before start : World) :
    RequestRules table options message start (readOnlyStages before start) where
  canonical path := by
    intro world h
    unfold weaklyCanonical
    split <;> exact h.dropFault
  reply _ _ _ := fun _ h ↦ h.log _
  lstat _ := keepsAt (perform_onlyReads fun _ _ h ↦ FileSystem.fs_of_statPath h)
  stat _ := keepsAt (perform_onlyReads fun _ _ h ↦ FileSystem.fs_of_statPath h)
  readlink _ := keepsAt (perform_onlyReads fun _ _ h ↦ FileSystem.fs_of_readlink h)
  statEntry _ _ := keepsAt (perform_onlyReads fun _ _ h ↦ FileSystem.fs_of_statPath h)
  fstat _ _ := keepsAt (perform_onlyReads fun _ _ h ↦
    fs_of_onDescriptor (fun _ _ h ↦ by rw [← Except.ok.inj h]) h)
  pread _ _ _ _ := keepsAt (perform_onlyReads fun _ _ h ↦
    fs_of_onDescriptor (fun _ _ h ↦ FileSystem.fs_of_pread h) h)
  pwrite hwritable := absurd (hwritable.symm.trans hreadOnly) (by decide)
  read _ _ _ _ _ h := ⟨h.1, h.2.slots⟩
  readdir _ _ _ _ := readdir_triple
    (fun _ h ↦ ⟨⟨h.1.called rfl _ _, h.2⟩, fun _ _ ↦ trivial⟩)
    fun _ _ h hstream ↦
      ⟨⟨⟨h.1.1, h.1.2.advance (mem_of_lookup hstream) (fun _ ↦ trivial) rfl rfl rfl⟩, h.2⟩,
        fun _ _ ↦ trivial⟩
  lstatChild _ _ _ _ _ _ := perform_triple (fun _ _ h ↦ ⟨h.1.called rfl _ _, h.2⟩)
    fun _ _ h hdone ↦ ⟨h.1.called (FileSystem.fs_of_statPath hdone) _ _, h.2⟩
  collect _ _ _ := fun _ h ↦ ⟨h.1.log _, h.2⟩
  listed _ h := h.1
  openFile hflags canon _ := by
    have hreads := posixOpenFlags_readsOnly (hflags hreadOnly)
    refine openFile_triple (fun _ _ h ↦ h.1.called rfl _ _) ?_
    intro world done h hdone opened
    obtain ⟨hfs, hfile⟩ := FileSystem.fs_of_openFile hreads hdone
    have hok : done.value.flags.ReadsOnly := hfile ▸ hreads
    have hopened : OnlyReads before opened := h.1.called hfs _ _
    have howned := newDescriptor_owned hopened.2 done.value hok canon
    exact ⟨⟨hopened.1, howned.1⟩, howned.2⟩
  opendir {canon} _ := by
    refine opendir_triple (fun _ _ h ↦ h.1.called rfl _ _) ?_
    intro world done h hdone opened
    have hopened : OnlyReads before opened := h.1.called (FileSystem.fs_of_opendir hdone) _ _
    have howned := newStream_owned hopened.2 done.value trivial canon
    exact ⟨⟨hopened.1, howned.1⟩, howned.2⟩
  newAddress _ _ := fun _ h ↦ ⟨h.1.transfer rfl rfl rfl rfl, isOwn_entry h.2 _⟩
  alloc entry := alloc_triple (fun _ h ↦ ⟨h.1.dropFault, h.2⟩)
    fun _ slot h _ _ ↦ ⟨h.1.1, h.1.2.stored h.2 slot⟩
  abandon entry := onlyReads_of_owned (fun _ h ↦ h.1.1) (closeHandle_fs entry)
    ((closeHandle_owned entry).mono (fun _ h ↦ ⟨h.1.2, h.2⟩) fun _ _ h ↦ h)
  grant _ := fun _ h ↦ h.log _
  release _ entry hheld := onlyReads_of_owned (fun _ h ↦ h.1.1)
    (fun world ↦ (closeHandle_fs entry _).trans (remove_fs table entry world))
    ((release_owned hheld).mono (fun _ h ↦ ⟨h.1.2, h.2⟩) fun _ _ h ↦ h)
  unlink hwritable := absurd (hwritable.symm.trans hreadOnly) (by decide)
  mkdir _ hwritable := absurd (hwritable.symm.trans hreadOnly) (by decide)
  rmdir _ hwritable := absurd (hwritable.symm.trans hreadOnly) (by decide)
  rename _ hwritable := absurd (hwritable.symm.trans hreadOnly) (by decide)
  symlink _ hwritable := absurd (hwritable.symm.trans hreadOnly) (by decide)

theorem serveMessage_onlyReads (table : HandleTable) {options : Options}
    (hreadOnly : options.readOnly = true) (before : World) (message : ClientMessage) :
    Keeps (OnlyReads before) (serveMessage table options message) := by
  intro world h
  have hserved := (readOnlyRules table hreadOnly message before _).request
    (world.log (.received message)) ⟨h.log _, quiet_refl _⟩
  exact OnlyReads.log hserved _

/-- After any conversation with a read-only server the file system is what it was, and
every descriptor in the handle table was opened for reading only. -/
theorem tryServe_readOnly (table : HandleTable) {options : Options}
    (hreadOnly : options.readOnly = true) (startup : Startup) (messages : List ClientMessage)
    (fs : FileSystem) (fds : List (ℤ × OpenFile)) (streams : List (ℕ × DirStream))
    (faults : List Fault) :
    let world := (tryServe table options startup messages (World.begin fs fds streams faults)).2
    world.fs = fs ∧
      ∀ slot entry, world.slots slot = some entry → entry.isDir = false →
        ∃ file, world.fds.lookup entry.fd = some file ∧ file.flags.ReadsOnly := by
  intro world
  have hledger : Ledger table none world :=
    tryServe_ledger table options startup messages fs fds streams faults
  have hreads : OnlyReads (World.begin fs fds streams faults) world := by
    change OnlyReads _ (tryServe table options startup messages _).2
    rw [tryServe_world]
    refine invariant_of_keeps (serveMessage_onlyReads table hreadOnly _) _ ?_
    exact ⟨rfl, owned_begin _ _ fs fds streams faults⟩
  refine ⟨hreads.1, fun slot entry hentry hfile ↦ ?_⟩
  have hknown := hledger.known _ (hledger.inTable slot entry hentry).2.2.2.1
  rw [HandleEntry.resource, hfile] at hknown
  obtain ⟨pair, hpair, heq⟩ := List.mem_map.mp hknown
  have hsome : (world.fds.lookup entry.fd).isSome = true :=
    List.lookup_isSome_iff.mpr ⟨pair, hpair, by simp [heq]⟩
  obtain ⟨file, hlookup⟩ := Option.isSome_iff_exists.mp hsome
  exact ⟨file, hlookup, hreads.2.file hentry hfile hlookup⟩

/-- The server of `/srv` in read-only mode. -/
def readOnlyServer : Options := { root := ⟨true, [ascii "srv"]⟩, readOnly := true }

/-- A client that opens a file for reading, tries to create another and to remove the
first. -/
def readOnlyClient : List ClientMessage :=
  [{ type := fxpOpen, filename := some (ascii "f"), flags := fxfRead },
    { type := fxpOpen, filename := some (ascii "g"), flags := fxfWrite ||| fxfCreat },
    { type := fxpRemove, filename := some (ascii "f") }]

theorem tryServe_readOnly_singleFile :
    let world := (tryServe HandleTable.firstFree readOnlyServer {} readOnlyClient
      (World.begin singleFile [] [] [])).2
    readOnlyServer.readOnly = true ∧ world.slots 0 ≠ none ∧ world.fs = singleFile ∧
      ∀ slot entry, world.slots slot = some entry → entry.isDir = false →
        ∃ file, world.fds.lookup entry.fd = some file ∧ file.flags.ReadsOnly :=
  ⟨rfl, by decide +kernel,
    tryServe_readOnly HandleTable.firstFree rfl {} readOnlyClient singleFile [] [] []⟩

end LibSshpp.SftpServer
