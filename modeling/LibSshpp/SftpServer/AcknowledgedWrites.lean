import LibSshpp.Program.Patch
import LibSshpp.Program.WriteAll
import LibSshpp.SftpServer.WriteRequests

/-!
What an acknowledged WRITE is worth. The server takes any count of `pwrite` for a success,
and `File::try_write_all` at the other end takes a success for all the bytes of its request.
-/

set_option autoImplicit false
set_option relaxedAutoImplicit false

namespace LibSshpp.SftpServer

open Posix Sftp Program

/-! ### The server -/

/-- What the file of a WRITE holds once all of the payload is stored. -/
def World.fullyWritten (world : World) (file : OpenFile) (message : ClientMessage) : Bytes :=
  FileSystem.overwrite (world.contents file) (world.writeStart file message) message.payload

section Server

variable (table : HandleTable) (options : Options)

/-- The open file behind a handle. -/
def OpensFile (world : World) (handle : Bytes) (file : OpenFile) : Prop :=
  ∃ entry, (table.decode handle).bind world.slots = some entry ∧ entry.isDir = false ∧
    world.fds.lookup entry.fd = some file

/-- A WRITE that is answered with success has stored all of its payload. -/
def AcknowledgesStored (world : World) (message : ClientMessage) : Prop :=
  message.type = fxpWrite → answers table options message world = [.status .ok ""] →
    ∃ file, OpensFile table world message.handle file ∧
      (serveMessage table options message world).2.contents file = world.fullyWritten file message

/-- Where the kernel stores a part of the payload of a WRITE, the rest of it is in its place
in the file already. -/
def LeavesNothingOut (world : World) (message : ClientMessage) : Prop :=
  message.type = fxpWrite → ∀ file, WritesTo table options world message file →
    message.payload.drop (world.storedBytes message).length <+: (world.contents file).drop
      (world.writeStart file message + (world.storedBytes message).length)

variable {table options} {message : ClientMessage} {world : World}

theorem OpensFile.unique {handle : Bytes} {file other : OpenFile}
    (h : OpensFile table world handle file) (hother : OpensFile table world handle other) :
    file = other := by
  obtain ⟨entry, hheld, -, hfile⟩ := h
  obtain ⟨entry', hheld', -, hfile'⟩ := hother
  obtain rfl := Option.some.inj (hheld.symm.trans hheld')
  exact Option.some.inj (hfile.symm.trans hfile')

/-- The content of the file after a WRITE. -/
theorem contents_of_writesTo (htype : message.type = fxpWrite) (hbacked : world.Backed)
    {file : OpenFile} (h : WritesTo table options world message file) :
    (serveMessage table options message world).2.contents file =
      FileSystem.overwrite (world.contents file) (world.writeStart file message)
        (world.storedBytes message) := by
  rw [World.contents, write_inode htype hbacked h, if_pos rfl]

/-- A WRITE is answered with success exactly when it gets to write. -/
theorem answers_ok_iff (htype : message.type = fxpWrite) :
    answers table options message world = [.status .ok ""] ↔
      ∃ file, WritesTo table options world message file := by
  constructor
  · intro hanswers
    by_contra hnone
    obtain ⟨⟨code, text, hcode, hrefused⟩, -⟩ := write_refused htype (not_exists.mp hnone)
    rw [hrefused] at hanswers
    exact hcode (Reply.status.inj (List.cons.inj hanswers).1).1
  · rintro ⟨file, hfile⟩
    exact (write_stores htype hfile).1

/-- All of the payload is stored exactly if nothing that is missing was left out. -/
theorem contents_eq_fullyWritten_iff (htype : message.type = fxpWrite) (hbacked : world.Backed)
    {file : OpenFile} (h : WritesTo table options world message file) :
    (serveMessage table options message world).2.contents file = world.fullyWritten file message ↔
      message.payload.drop (world.storedBytes message).length <+: (world.contents file).drop
        (world.writeStart file message + (world.storedBytes message).length) := by
  have htaken : world.storedBytes message =
      message.payload.take (world.storedBytes message).length :=
    List.prefix_iff_eq_take.mp (List.take_prefix _ _)
  have hlength : (world.storedBytes message).length ≤ message.payload.length :=
    (List.take_prefix _ _).length_le
  rw [contents_of_writesTo htype hbacked h, World.fullyWritten]
  nth_rewrite 1 [htaken]
  exact patch_take_eq_iff 0 (world.contents file) message.payload _ hlength

theorem acknowledgesStored_iff_leavesNothingOut (hbacked : world.Backed) :
    AcknowledgesStored table options world message ↔
      LeavesNothingOut table options world message := by
  constructor
  · intro hstored htype file hfile
    obtain ⟨other, hother, hcontents⟩ :=
      hstored htype ((answers_ok_iff htype).mpr ⟨file, hfile⟩)
    obtain rfl := OpensFile.unique hother hfile.held
    exact (contents_eq_fullyWritten_iff htype hbacked hfile).mp hcontents
  · intro hnothing htype hanswers
    obtain ⟨file, hfile⟩ := (answers_ok_iff htype).mp hanswers
    exact ⟨file, hfile.held,
      (contents_eq_fullyWritten_iff htype hbacked hfile).mpr (hnothing htype file hfile)⟩

end Server

/-! ### The client -/

/-- The number of a status code on the wire. -/
def StatusCode.number : StatusCode → ℤ
  | .ok => 0
  | .eof => 1
  | .noSuchFile => 2
  | .permissionDenied => 3
  | .failure => 4
  | .opUnsupported => 8
  | .invalidHandle => 9

/-- A `File` whose requests this server answers, with the state libssh keeps for it, the
requests it made so far and the largest length of one. -/
structure ServedFile where
  isOpen : Bool := true
  handle : Bytes
  offset : UInt64 := 0
  maxLength : ℕ := 32768
  maxLength_lt : maxLength < 2 ^ 32 := by decide
  made : List ClientMessage := []
  world : World

namespace ServedFile

variable (table : HandleTable) (options : Options)

/-- The request of `sftp_write`. -/
def writeRequest (file : ServedFile) (data : Bytes) : ClientMessage where
  type := fxpWrite
  handle := file.handle
  offset := file.offset
  data := some (data.take file.maxLength)

/-- The server has answered a request. -/
def request (file : ServedFile) (message : ClientMessage) : ServedFile :=
  { file with
    made := file.made ++ [message]
    world := (serveMessage table options message file.world).2 }

/-- `sftp_write`: one request at the offset, which advances by the length of the request when
the server answers with success. -/
def sftpWrite (file : ServedFile) (data : Bytes) : Except ℤ ℕ × ServedFile :=
  let message := file.writeRequest data
  let count := (data.take file.maxLength).length
  match answers table options message file.world with
  | [.status .ok _] =>
    (.ok count, { file.request table options message with offset := file.offset + count.toUInt64 })
  | [.status code _] => (.error code.number, file.request table options message)
  | _ => (.error (-1), file.request table options message)

/-- `File::try_write`. -/
def tryWrite (data : Bytes) : StateM ServedFile (Result ℕ) := fun file ↦
  if file.isOpen = false then
    (.error { code := .ssh .invalidHandle, operation := "File::try_write" }, file)
  else match file.sftpWrite table options data with
    | (.error status, file) => (.error (makeSftpErrorInfo status {} "sftp_write"), file)
    | (.ok count, file) => (.ok count, file)

/-- `File::try_write_all`. -/
def tryWriteAll : Bytes → StateM ServedFile (Result Unit) :=
  writeAll {
    code := .ssh .channelClosed, message := "short write"
    operation := "File::try_write_all" } (tryWrite table options)

/-- Where a write at the offset of the file starts in the file it is open on. -/
def start (file : ServedFile) (target : OpenFile) : ℕ :=
  if target.flags.append then (file.world.contents target).length else file.offset.toNat

/-- The open file of the server holds the data at the offset, which is behind it now. -/
structure Stored (before : ServedFile) (data : Bytes) (after : ServedFile) : Prop where
  offset : after.offset.toNat = before.offset.toNat + data.length
  opened : data ≠ [] → ∃ target, OpensFile table before.world before.handle target
  contents : ∀ target, OpensFile table before.world before.handle target →
    after.world.contents target =
      FileSystem.overwrite (before.world.contents target) (before.start target) data

/-- The data was acknowledged: it is stored if the kernel left nothing out. -/
structure Took (before : ServedFile) (data : Bytes) (after : ServedFile) : Prop where
  handle : after.handle = before.handle
  fds : after.world.fds = before.world.fds
  slots : after.world.slots = before.world.slots
  requests : ∃ requests, after.made = before.made ++ requests ∧
    after.world = stateAfter (serveMessage table options) requests before.world ∧
    (before.world.Backed →
      Allowed (serveMessage table options) (LeavesNothingOut table options) requests
        before.world → Stored table before data after)

variable {table options}

theorem Stored.refl (file : ServedFile) : Stored table file [] file where
  offset := rfl
  opened h := absurd rfl h
  contents _ _ := rfl

theorem opensFile_congr {world after : World} {handle : Bytes} {target : OpenFile}
    (hfds : after.fds = world.fds) (hslots : after.slots = world.slots) :
    OpensFile table after handle target ↔ OpensFile table world handle target := by
  unfold OpensFile
  rw [hfds, hslots]

theorem Took.opensFile {before after : ServedFile} {data : Bytes}
    (h : Took table options before data after) (target : OpenFile) :
    OpensFile table after.world after.handle target ↔
      OpensFile table before.world before.handle target := by
  rw [h.handle]
  exact opensFile_congr h.fds h.slots

/-- A write starts where the one before it ended. -/
theorem Stored.start {before after : ServedFile} {data : Bytes}
    (h : Stored table before data after) {target : OpenFile}
    (htarget : OpensFile table before.world before.handle target) :
    after.start target = before.start target + data.length := by
  have hcontents := h.contents target htarget
  unfold ServedFile.start at hcontents ⊢
  by_cases happend : target.flags.append = true
  · rw [if_pos happend] at hcontents
    rw [if_pos happend, if_pos happend, hcontents]
    change (patch 0 _ _ data).length = _
    rw [length_patch]
    split_ifs with hdata
    · rw [hdata]
      rfl
    · omega
  · rw [if_neg happend, if_neg happend, h.offset]

theorem Took.refl (file : ServedFile) : Took table options file [] file where
  handle := rfl
  fds := rfl
  slots := rfl
  requests := ⟨[], (List.append_nil _).symm, rfl, fun _ _ ↦ Stored.refl file⟩

theorem Stored.trans {before middle after : ServedFile} {first second : Bytes}
    (htook : Took table options before first middle) (hfirst : Stored table before first middle)
    (hsecond : Stored table middle second after) :
    Stored table before (first ++ second) after where
  offset := by rw [hsecond.offset, hfirst.offset, List.length_append, Nat.add_assoc]
  opened hdata := by
    by_cases hnil : first = []
    · obtain ⟨target, htarget⟩ := hsecond.opened fun h ↦ hdata (by rw [hnil, h]; rfl)
      exact ⟨target, (htook.opensFile target).mp htarget⟩
    · exact hfirst.opened hnil
  contents target htarget := by
    rw [hsecond.contents target ((htook.opensFile target).mpr htarget), hfirst.start htarget,
      hfirst.contents target htarget]
    exact patch_append 0 _ first second _

theorem Took.trans {before middle after : ServedFile} {first second : Bytes}
    (hfirst : Took table options before first middle)
    (hsecond : Took table options middle second after) :
    Took table options before (first ++ second) after where
  handle := hsecond.handle.trans hfirst.handle
  fds := hsecond.fds.trans hfirst.fds
  slots := hsecond.slots.trans hfirst.slots
  requests := by
    obtain ⟨requests, hmade, hworld, hstored⟩ := hfirst.requests
    obtain ⟨more, hmade', hworld', hstored'⟩ := hsecond.requests
    refine ⟨requests ++ more, ?_, ?_, fun hbacked hallowed ↦ ?_⟩
    · rw [hmade', hmade, List.append_assoc]
    · rw [stateAfter_append, hworld', hworld]
    · obtain ⟨hallowed, hallowed'⟩ := allowed_append.mp hallowed
      rw [← hworld] at hallowed'
      have hmiddle : middle.world.Backed := by
        rw [hworld]
        exact invariant_of_keeps (serveMessage_backed table options) requests hbacked
      exact (hstored hbacked hallowed).trans hfirst (hstored' hmiddle hallowed')

/-! One request. -/

theorem payload_writeRequest (file : ServedFile) (data : Bytes) :
    (file.writeRequest data).payload = data.take file.maxLength := by
  have hlength : (data.take file.maxLength).length < 2 ^ 32 :=
    (List.length_take_le _ _).trans_lt file.maxLength_lt
  have hnumber : (data.take file.maxLength).length.toUInt32.toNat =
      (data.take file.maxLength).length := UInt32.toNat_ofNat_of_lt' hlength
  change (data.take file.maxLength).take (data.take file.maxLength).length.toUInt32.toNat = _
  rw [hnumber, List.take_length]

/-- What a request leaves to be told. -/
theorem took_of_stored {file after : ServedFile} {data taken : Bytes}
    (hhandle : after.handle = file.handle)
    (hmade : after.made = file.made ++ [file.writeRequest data])
    (hworld : after.world =
      (serveMessage table options (file.writeRequest data) file.world).2)
    (hstored : file.world.Backed →
      LeavesNothingOut table options file.world (file.writeRequest data) →
        Stored table file taken after) : Took table options file taken after := by
  have hframe : (serveMessage table options (file.writeRequest data) file.world).2.fds =
      file.world.fds ∧ (serveMessage table options (file.writeRequest data) file.world).2.slots =
        file.world.slots := write_frame rfl
  rw [← hworld] at hframe
  exact ⟨hhandle, hframe.1, hframe.2, [file.writeRequest data], hmade, hworld,
    fun hbacked hallowed ↦ hstored hbacked hallowed.1⟩

/-- A request that gets to write is taken for the whole of its payload. -/
theorem sftpWrite_of_writesTo {file : ServedFile} {data : Bytes} {target : OpenFile}
    (h : WritesTo table options file.world (file.writeRequest data) target) :
    ∃ after, file.sftpWrite table options data =
        (.ok (data.take file.maxLength).length, after) ∧
      Took table options file (data.take file.maxLength) after := by
  have hanswers := (write_stores rfl h).1
  refine ⟨{ file.request table options (file.writeRequest data) with
      offset := file.offset + (data.take file.maxLength).length.toUInt64 },
    by rw [sftpWrite, hanswers], took_of_stored rfl rfl rfl fun hbacked hnothing ↦ ?_⟩
  have hpayload := payload_writeRequest file data
  obtain ⟨hoffset, hlt⟩ := toNatClampNeg_of_nonneg h.offset
  have hlength : (data.take file.maxLength).length < 2 ^ 32 :=
    (List.length_take_le _ _).trans_lt file.maxLength_lt
  refine ⟨?_, fun _ ↦ ⟨target, h.held⟩, fun other hother ↦ ?_⟩
  · change (file.offset + (data.take file.maxLength).length.toUInt64).toNat = _
    have hlt : file.offset.toNat < 2 ^ 63 := hlt
    have hcount : (data.take file.maxLength).length < UInt64.size :=
      hlength.trans (by decide)
    rw [UInt64.toNat_add, UInt64.toNat_ofNat_of_lt' hcount]
    exact Nat.mod_eq_of_lt (by omega)
  · obtain rfl := hother.unique h.held
    have hcontents := (contents_eq_fullyWritten_iff rfl hbacked h).mpr (hnothing rfl other h)
    rw [World.fullyWritten, hpayload, World.writeStart, hoffset] at hcontents
    exact hcontents

theorem sftpWrite_of_refused {file : ServedFile} {data : Bytes}
    (h : ∀ target, ¬ WritesTo table options file.world (file.writeRequest data) target) :
    ∃ status after, file.sftpWrite table options data = (.error status, after) ∧
      Took table options file [] after := by
  obtain ⟨⟨code, text, hcode, hanswers⟩, hfs⟩ := write_refused rfl h
  refine ⟨code.number, file.request table options (file.writeRequest data), ?_,
    took_of_stored rfl rfl rfl fun _ _ ↦ ⟨rfl, fun hdata ↦ absurd rfl hdata, fun target _ ↦ ?_⟩⟩
  · rw [sftpWrite, hanswers]
    cases code with
    | ok => exact absurd rfl hcode
    | _ => rfl
  · change ((serveMessage table options (file.writeRequest data) file.world).2.fs.inode
      target.ino).data = _
    rw [hfs]
    rfl

theorem accepts_tryWrite : Accepts (Took table options) (tryWrite table options) where
  refl := Took.refl
  trans := Took.trans
  of_ok := by
    intro data file count after h
    by_cases hopen : file.isOpen = false
    · rw [tryWrite, if_pos hopen] at h
      exact nomatch congrArg Prod.fst h
    rw [tryWrite, if_neg hopen] at h
    by_cases hwrites : ∃ target,
        WritesTo table options file.world (file.writeRequest data) target
    · obtain ⟨target, htarget⟩ := hwrites
      obtain ⟨written, hwrite, htook⟩ := sftpWrite_of_writesTo htarget
      rw [hwrite] at h
      obtain ⟨hcount, rfl⟩ := Prod.mk.inj h
      obtain rfl := Except.ok.inj hcount
      refine ⟨(List.take_prefix _ _).length_le, ?_⟩
      rw [← List.prefix_iff_eq_take.mp (List.take_prefix file.maxLength data)]
      exact htook
    · obtain ⟨status, refused, hwrite, -⟩ := sftpWrite_of_refused (not_exists.mp hwrites)
      rw [hwrite] at h
      exact nomatch congrArg Prod.fst h
  of_error := by
    intro data file info after h
    by_cases hopen : file.isOpen = false
    · rw [tryWrite, if_pos hopen] at h
      obtain ⟨-, rfl⟩ := Prod.mk.inj h
      exact Took.refl file
    rw [tryWrite, if_neg hopen] at h
    by_cases hwrites : ∃ target,
        WritesTo table options file.world (file.writeRequest data) target
    · obtain ⟨target, htarget⟩ := hwrites
      obtain ⟨written, hwrite, -⟩ := sftpWrite_of_writesTo htarget
      rw [hwrite] at h
      exact nomatch congrArg Prod.fst h
    · obtain ⟨status, refused, hwrite, htook⟩ := sftpWrite_of_refused (not_exists.mp hwrites)
      rw [hwrite] at h
      obtain ⟨-, rfl⟩ := Prod.mk.inj h
      exact htook

/-- A successful `try_write_all` has had all its data acknowledged. -/
theorem tryWriteAll_took {file after : ServedFile} {data : Bytes}
    (h : tryWriteAll table options data file = (.ok (), after)) :
    Took table options file data after := by
  have hwrote : Wrote (Took table options) file data (tryWriteAll table options data file).1
      (tryWriteAll table options data file).2 := accepts_tryWrite.writeAll_wrote data file
  rw [h] at hwrote
  exact hwrote

end ServedFile

/-! ### Both ends -/

/-- A WRITE that is acknowledged is stored in all of a run exactly if the kernel leaves nothing
out in the run; and if it leaves nothing out of the requests of a `try_write_all` that
succeeds, the file holds all the data. -/
theorem acknowledged_stored_iff (table : HandleTable) (options : Options) :
    (∀ (world : World) (messages : List ClientMessage), world.Backed →
      (Allowed (serveMessage table options) (AcknowledgesStored table options) messages world ↔
        Allowed (serveMessage table options) (LeavesNothingOut table options) messages world)) ∧
    ∀ (file after : ServedFile) (data : Bytes), file.world.Backed →
      ServedFile.tryWriteAll table options data file = (.ok (), after) →
        ∃ requests, after.made = file.made ++ requests ∧
          after.world = stateAfter (serveMessage table options) requests file.world ∧
          (Allowed (serveMessage table options) (LeavesNothingOut table options) requests
            file.world → file.Stored table data after) := by
  refine ⟨fun world messages hbacked ↦ ?_, fun file after data hbacked h ↦ ?_⟩
  · have hsame : ∀ (state : World) (message : ClientMessage), state.Backed →
        (AcknowledgesStored table options state message ↔
          LeavesNothingOut table options state message) :=
      fun _ _ hstate ↦ acknowledgesStored_iff_leavesNothingOut hstate
    exact allowed_iff_of_invariant hsame (fun message state hstate ↦
      serveMessage_backed table options message state hstate.1) hbacked
  · obtain ⟨requests, hmade, hworld, hstored⟩ := (ServedFile.tryWriteAll_took h).requests
    exact ⟨requests, hmade, hworld, hstored hbacked⟩

/-- A file that was truncated when it was opened for writing, before a call with a fault. -/
def truncatedFile (fault : Fault) : ServedFile where
  handle := [0, 0, 0, 0]
  world := stateAfter (serveMessage HandleTable.firstFree srvServer)
    [{ type := fxpOpen, filename := some (ascii "f"), flags := fxfWrite ||| fxfTrunc }]
    (World.begin singleFile [] [] (List.replicate 4 .none ++ [fault]))

theorem truncatedFile_backed (fault : Fault) : (truncatedFile fault).world.Backed :=
  invariant_of_keeps (serveMessage_backed HandleTable.firstFree srvServer) _
    (singleFile_backed _)

theorem acknowledged_stored_iff_hello :
    (∀ messages, Allowed (serveMessage HandleTable.firstFree srvServer)
        (AcknowledgesStored HandleTable.firstFree srvServer) messages (truncatedFile .none).world ↔
      Allowed (serveMessage HandleTable.firstFree srvServer)
        (LeavesNothingOut HandleTable.firstFree srvServer) messages (truncatedFile .none).world) ∧
    ∃ after, ServedFile.tryWriteAll HandleTable.firstFree srvServer (ascii "hello")
        (truncatedFile .none) = (.ok (), after) ∧
      (truncatedFile .none).Stored HandleTable.firstFree (ascii "hello") after := by
  obtain ⟨hserver, hclient⟩ := acknowledged_stored_iff HandleTable.firstFree srvServer
  have hok : ServedFile.tryWriteAll HandleTable.firstFree srvServer (ascii "hello")
      (truncatedFile .none) = (.ok (), (ServedFile.tryWriteAll HandleTable.firstFree srvServer
        (ascii "hello") (truncatedFile .none)).2) := Prod.ext (by decide +kernel) rfl
  obtain ⟨requests, hmade, -, hstored⟩ :=
    hclient (truncatedFile .none) _ (ascii "hello") (truncatedFile_backed .none) hok
  have hrequests : requests = [(truncatedFile .none).writeRequest (ascii "hello")] := by
    have hlist : (ServedFile.tryWriteAll HandleTable.firstFree srvServer (ascii "hello")
        (truncatedFile .none)).2.made =
          [(truncatedFile .none).writeRequest (ascii "hello")] := by decide +kernel
    rw [← hlist, hmade]
    rfl
  refine ⟨fun messages ↦ hserver _ messages (truncatedFile_backed .none), _, hok, hstored ?_⟩
  rw [hrequests]
  refine ⟨fun _ file _ ↦ ?_, trivial⟩
  have hall : (((truncatedFile .none).writeRequest (ascii "hello")).payload).drop
      ((truncatedFile .none).world.storedBytes
        ((truncatedFile .none).writeRequest (ascii "hello"))).length = [] := by decide +kernel
  rw [hall]
  exact List.nil_prefix

/-- The kernel stores three of five bytes: the server acknowledges the request all the same, and
the client has written a file that is too short. -/
theorem short_write_acknowledged :
    ¬ Allowed (serveMessage HandleTable.firstFree srvServer)
      (AcknowledgesStored HandleTable.firstFree srvServer)
      [{ type := fxpWrite, handle := [0, 0, 0, 0], data := some (ascii "hello") }]
      (truncatedFile (.short 3)).world ∧
    (ServedFile.tryWriteAll HandleTable.firstFree srvServer (ascii "hello")
      (truncatedFile (.short 3))).1 = .ok () ∧
    ((ServedFile.tryWriteAll HandleTable.firstFree srvServer (ascii "hello")
      (truncatedFile (.short 3))).2.world.fs.inode 2).data = ascii "hel" := by
  refine ⟨?_, by decide +kernel, by decide +kernel⟩
  rintro ⟨h, -⟩
  obtain ⟨file, ⟨entry, hheld, -, hfile⟩, hcontents⟩ := h rfl (by decide +kernel)
  have hentry : (HandleTable.firstFree.decode [0, 0, 0, 0]).bind
      (truncatedFile (.short 3)).world.slots =
        some { address := 0, fd := 0, path := ⟨true, [ascii "srv", ascii "f"]⟩ } := by
    decide +kernel
  obtain rfl := Option.some.inj (hentry.symm.trans hheld)
  have hopened : (truncatedFile (.short 3)).world.fds.lookup 0 = some {
      loc := [ascii "srv", ascii "f"], ino := 2, isDir := false
      flags := { access := .writeOnly, trunc := true } } := by decide +kernel
  obtain rfl := Option.some.inj (hopened.symm.trans hfile)
  exact absurd hcontents (by decide +kernel)

end LibSshpp.SftpServer
