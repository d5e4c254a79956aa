import LibSshpp.SftpServer.AcknowledgedWrites

/-!
What one READ request does: it is answered with bytes of the file behind its handle, with the end
of the file, or with a failure, and it changes nothing but the trace.
-/

set_option autoImplicit false
set_option relaxedAutoImplicit false

namespace LibSshpp.SftpServer

open Posix Sftp Program

/-- The largest number of bytes a READ is answered with. -/
def readLimit : ℕ := 64 * 1024

/-- The bytes the kernel gives to a READ on a file. -/
def World.readBytes (world : World) (file : OpenFile) (message : ClientMessage) : Bytes :=
  ((world.contents file).drop message.offset.toInt64.toNatClampNeg).take
    (world.fault.limit (min message.len.toNat readLimit))

/-- The reply to a READ that the kernel gave bytes to. -/
def readReply (bytes : Bytes) : Reply := if bytes = [] then .status .eof "" else .data bytes

/-- What a request does not touch: the descriptors, the handles, and the faults to come, of which
it takes some. -/
structure KeepsOpen (world after : World) : Prop where
  fds : after.fds = world.fds
  slots : after.slots = world.slots
  faults : ∀ fault ∈ after.faults, fault ∈ world.faults

/-- The request gets to a `pread` on the file that succeeds. -/
structure ReadsFrom (table : HandleTable) (world : World) (message : ClientMessage)
    (file : OpenFile) : Prop where
  held : OpensFile table world message.handle file
  passes : world.fault.fails = false
  access : file.flags.access ≠ .writeOnly
  offset : ¬ message.offset.toInt64 < 0
  isFile : file.isDir = false

variable {table : HandleTable} {options : Options} {message : ClientMessage} {world : World}

theorem KeepsOpen.logged {after : World} (h : KeepsOpen world after) (event : Event) :
    KeepsOpen world (after.log event) := ⟨h.fds, h.slots, h.faults⟩

theorem keepsOpen_log (world : World) (event : Event) : KeepsOpen world (world.log event) :=
  ⟨rfl, rfl, fun _ h ↦ h⟩

theorem keepsOpen_called (world : World) (call : PosixCall) (fs : FileSystem)
    (touched : List Loc) : KeepsOpen world (world.called call fs touched) :=
  ⟨rfl, rfl, fun _ h ↦ List.mem_of_mem_tail h⟩

theorem readsFrom_log (event : Event) (file : OpenFile) :
    ReadsFrom table (world.log event) message file ↔ ReadsFrom table world message file :=
  ⟨fun h ↦ ⟨h.held, h.passes, h.access, h.offset, h.isFile⟩,
    fun h ↦ ⟨h.held, h.passes, h.access, h.offset, h.isFile⟩⟩

theorem serveRequest_of_read (table : HandleTable) (options : Options)
    (htype : message.type = fxpRead) :
    serveRequest table options message = serveRead table message := by
  unfold serveRequest
  simp only [htype]
  rfl

/-! ### The kernel -/

theorem pread_of_file (size : ℕ) (offset : Int64) (hpasses : world.fault.fails = false)
    {fd : ℤ} {file : OpenFile} (hfile : world.fds.lookup fd = some file) :
    pread fd size offset world =
      match world.fs.pread file (world.fault.limit size) offset with
      | .error error => (.error error, world.called (.pread fd) world.fs [])
      | .ok done => (.ok done.value, world.called (.pread fd) done.fs done.touched) := by
  have hop : onDescriptor fd (fun file ↦ world.fs.pread file (world.fault.limit size) offset)
      world = world.fs.pread file (world.fault.limit size) offset := by
    rw [onDescriptor, hfile]
  unfold pread
  rw [perform_of_passes hpasses, hop]
  cases world.fs.pread file (world.fault.limit size) offset <;> rfl

/-- A `pread` fails and leaves the files, or is one of a file that may be read. -/
theorem pread_cases (fd : ℤ) (size : ℕ) (offset : Int64) (world : World) :
    (∃ error, pread fd size offset world = (.error error, world.called (.pread fd) world.fs [])) ∨
      ∃ file, world.fds.lookup fd = some file ∧ world.fault.fails = false ∧
        file.flags.access ≠ .writeOnly ∧ ¬ offset < 0 ∧ file.isDir = false := by
  cases hpasses : world.fault.fails with
  | true => exact .inl (perform_of_fails hpasses)
  | false =>
    cases hfile : world.fds.lookup fd with
    | none =>
      refine .inl ⟨.ebadf, ?_⟩
      unfold pread
      rw [perform_of_passes hpasses, onDescriptor, hfile]
    | some file =>
      have hcall := pread_of_file size offset hpasses hfile
      unfold FileSystem.pread at hcall
      by_cases haccess : file.flags.access = .writeOnly
      · rw [if_pos haccess] at hcall
        exact .inl ⟨_, hcall⟩
      by_cases hoffset : offset < 0
      · rw [if_neg haccess, if_pos hoffset] at hcall
        exact .inl ⟨_, hcall⟩
      by_cases hdir : file.isDir = true
      · rw [if_neg haccess, if_neg hoffset, if_pos hdir] at hcall
        exact .inl ⟨_, hcall⟩
      exact .inr ⟨file, rfl, rfl, haccess, hoffset, by simpa using hdir⟩

/-! ### The request -/

/-- The descriptor of a handle is reached by every READ on it. -/
theorem serveRead_of_held {entry : HandleEntry} (hheld : Held table message world entry)
    (hfile : entry.isDir = false) :
    serveRead table message world = (do
      match ← pread entry.fd (min message.len.toNat readLimit) message.offset.toInt64 with
      | .error error => replyStatus .failure (strerror error)
      | .ok [] => replyStatus .eof ""
      | .ok bytes => reply (.data bytes)) world := by
  have hlookup : table.sftpHandle message.handle world = (some entry, world) :=
    Prod.ext hheld rfl
  have hnot : ¬ entry.isDir = true := by
    rw [hfile]
    exact Bool.noConfusion
  unfold serveRead
  rw [bind_of_eq hlookup]
  exact congrFun (if_neg hnot) world

theorem serveRead_reads {file : OpenFile} (h : ReadsFrom table world message file) :
    ∃ call, serveRead table message world =
      ((), (world.called call world.fs [file.loc]).log
        (.replied (readReply (world.readBytes file message)))) := by
  obtain ⟨entry, hheld, hfile, hlookup⟩ := h.held
  have hcall := pread_of_file (min message.len.toNat readLimit) message.offset.toInt64 h.passes
    hlookup
  have hdir : ¬ file.isDir = true := by rw [h.isFile]; exact Bool.noConfusion
  rw [FileSystem.pread, if_neg h.access, if_neg h.offset, if_neg hdir] at hcall
  refine ⟨.pread entry.fd, ?_⟩
  rw [serveRead_of_held hheld hfile, bind_of_eq hcall]
  change _ = ((), (world.called (.pread entry.fd) world.fs [file.loc]).log
    (.replied (readReply (((world.fs.inode file.ino).data.drop _).take _))))
  cases ((world.fs.inode file.ino).data.drop message.offset.toInt64.toNatClampNeg).take
    (world.fault.limit (min message.len.toNat readLimit)) <;> rfl

/-- A READ that does not get to read is refused, and not with the end of the file. -/
theorem serveRead_refused (hnone : ∀ file, ¬ ReadsFrom table world message file) :
    ∃ code text after, code ≠ .ok ∧ code ≠ .eof ∧ serveRead table message world = ((), after) ∧
      RefusedIn world after (.status code text) := by
  cases hlookup : (table.decode message.handle).bind world.slots with
  | none =>
    have hnothing : table.sftpHandle message.handle world = (none, world) :=
      Prod.ext hlookup rfl
    refine ⟨.invalidHandle, "", _, by decide, by decide, ?_, .inl rfl⟩
    unfold serveRead
    rw [bind_of_eq hnothing]
    rfl
  | some entry =>
    have hentry : table.sftpHandle message.handle world = (some entry, world) :=
      Prod.ext hlookup rfl
    by_cases hdir : entry.isDir = true
    · refine ⟨.invalidHandle, "", _, by decide, by decide, ?_, .inl rfl⟩
      unfold serveRead
      rw [bind_of_eq hentry]
      exact congrFun (if_pos hdir) world
    · have hfile : entry.isDir = false := by simpa using hdir
      obtain ⟨error, hcall⟩ | ⟨file, hopen, hpasses, haccess, hoffset, hisFile⟩ :=
        pread_cases entry.fd (min message.len.toNat readLimit) message.offset.toInt64 world
      · refine ⟨.failure, strerror error, _, by decide, by decide, ?_,
          .inr ⟨.pread entry.fd, rfl⟩⟩
        rw [serveRead_of_held hlookup hfile, bind_of_eq hcall]
        rfl
      · exact absurd ⟨⟨entry, hlookup, hfile, hopen⟩, hpasses, haccess, hoffset, hisFile⟩
          (hnone file)

theorem refusedIn_keeps {after : World} {answer : Reply} (h : RefusedIn world after answer) :
    KeepsOpen world after ∧ after.fs = world.fs := by
  rcases h with rfl | ⟨call, rfl⟩
  · exact ⟨keepsOpen_log world _, rfl⟩
  · exact ⟨(keepsOpen_called world call world.fs []).logged _, rfl⟩

/-- The world after a message whose request is known. -/
theorem keepsOpen_of_served {after : World}
    (h : serveRequest table options message (world.log (.received message)) = ((), after))
    (hkeeps : KeepsOpen (world.log (.received message)) after) :
    KeepsOpen world (serveMessage table options message world).2 := by
  have hserved : (serveMessage table options message world).2 = after.log (.freed message) := by
    change (serveRequest table options message (world.log (.received message))).2.log _ = _
    rw [h]
  rw [hserved]
  exact ⟨hkeeps.fds, hkeeps.slots, hkeeps.faults⟩

/-- A READ that gets to read is answered with the bytes the kernel has for it. -/
theorem read_answers (table : HandleTable) (options : Options) (htype : message.type = fxpRead)
    {file : OpenFile}
    (h : ReadsFrom table world message file) :
    answers table options message world = [readReply (world.readBytes file message)] := by
  obtain ⟨call, hserve⟩ := serveRead_reads ((readsFrom_log (.received message) file).mpr h)
  rw [← serveRequest_of_read table options htype] at hserve
  exact (answers_of_called call _ _ hserve).1

theorem read_refused (table : HandleTable) (options : Options) (htype : message.type = fxpRead)
    (hnone : ∀ file, ¬ ReadsFrom table world message file) :
    ∃ code text, code ≠ .ok ∧ code ≠ .eof ∧
      answers table options message world = [.status code text] := by
  obtain ⟨code, text, after, hcode, heof, hserve, hafter⟩ := serveRead_refused fun file h ↦
    hnone file ((readsFrom_log (.received message) file).mp h)
  rw [← serveRequest_of_read table options htype] at hserve
  rcases hafter with rfl | ⟨call, rfl⟩
  · exact ⟨code, text, hcode, heof, answers_of_refused hserve⟩
  · exact ⟨code, text, hcode, heof, (answers_of_called call _ _ hserve).1⟩

/-- A READ changes no file, no descriptor and no handle. -/
theorem read_frame (table : HandleTable) (options : Options) (world : World)
    (htype : message.type = fxpRead) :
    (serveMessage table options message world).2.fs = world.fs ∧
      KeepsOpen world (serveMessage table options message world).2 := by
  have hrequest := serveRequest_of_read table options htype
  by_cases h : ∃ file, ReadsFrom table world message file
  · obtain ⟨file, hfile⟩ := h
    obtain ⟨call, hserve⟩ := serveRead_reads ((readsFrom_log (.received message) file).mpr hfile)
    rw [← hrequest] at hserve
    exact ⟨(answers_of_called call _ _ hserve).2,
      keepsOpen_of_served hserve ((keepsOpen_called _ _ _ _).logged _)⟩
  · obtain ⟨code, text, after, -, -, hserve, hafter⟩ := serveRead_refused fun file hfile ↦
      h ⟨file, (readsFrom_log (.received message) file).mp hfile⟩
    rw [← hrequest] at hserve
    obtain ⟨hkeeps, hfs⟩ := refusedIn_keeps hafter
    refine ⟨?_, keepsOpen_of_served hserve hkeeps⟩
    exact (congrArg (fun result : Unit × World ↦ result.2.fs) hserve).trans hfs

/-- A WRITE leaves the descriptors and the handles. -/
theorem write_keepsOpen (table : HandleTable) (options : Options) (world : World)
    (htype : message.type = fxpWrite) :
    KeepsOpen world (serveMessage table options message world).2 := by
  have hrequest := serveRequest_of_write table options htype
  by_cases h : ∃ file, WritesTo table options world message file
  · obtain ⟨file, hfile⟩ := h
    obtain ⟨call, hserve⟩ := serveWrite_stores ((writesTo_log (.received message) file).mpr hfile)
    rw [← hrequest] at hserve
    exact keepsOpen_of_served hserve ((keepsOpen_called _ _ _ _).logged _)
  · obtain ⟨code, text, after, -, hserve, hafter⟩ := serveWrite_refused fun file hfile ↦
      h ⟨file, (writesTo_log (.received message) file).mp hfile⟩
    rw [← hrequest] at hserve
    exact keepsOpen_of_served hserve (refusedIn_keeps hafter).1

end LibSshpp.SftpServer
