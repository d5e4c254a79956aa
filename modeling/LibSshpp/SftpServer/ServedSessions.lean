import LibSshpp.Posix.OpenedFiles
import LibSshpp.Sftp.DownloadTree
import LibSshpp.SftpServer.OpenRequests
import LibSshpp.SftpServer.ServedFiles

/-!
An `Sftp` session at one end and this server at the other, as far as files are opened, inspected
and closed through it. A file that is open is the one the server opened for its path, whatever
is read and written meanwhile, and closing it leaves the server's descriptors and handles as they
were before it was opened.
-/

set_option autoImplicit false
set_option relaxedAutoImplicit false

namespace LibSshpp.SftpServer

open Posix Sftp Program

/-! ### Flags -/

/-- `open_mode_to_posix`. -/
def openModeToPosix (mode : OpenMode) : OpenFlags where
  access :=
    if mode.read && mode.write then .readWrite
    else if mode.write then .writeOnly
    else .readOnly
  creat := mode.create
  trunc := mode.truncate
  excl := mode.exclusive

/-- What libssh's `sftp_open` sends for the flags of `open`. -/
def sftpOpenFlags (flags : OpenFlags) : UInt32 :=
  (match flags.access with
    | .readWrite => fxfRead ||| fxfWrite
    | .writeOnly => fxfWrite
    | .readOnly => fxfRead) |||
  (if flags.creat then fxfCreat else 0) ||| (if flags.trunc then fxfTrunc else 0) |||
  (if flags.excl then fxfExcl else 0) ||| (if flags.append then fxfAppend else 0)

/-- The flags of `open` come back from the wire. -/
theorem posixOpenFlags_sftpOpenFlags (flags : OpenFlags) :
    posixOpenFlags (sftpOpenFlags flags) = flags := by
  obtain ⟨access, creat, trunc, excl, append⟩ := flags
  cases access <;> cases creat <;> cases trunc <;> cases excl <;> cases append <;> decide

/-! ### The session -/

/-- An `Sftp` session whose requests this server answers. -/
structure ServedSession where
  isOpen : Bool := true
  lastError : SshError := {}
  maxLength : ℕ := 32768
  maxLength_pos : 0 < maxLength := by decide
  maxLength_lt : maxLength < 2 ^ 32 := by decide
  world : World

/-- The request of `sftp_open`. -/
def openRequest (path : RemotePath) (mode : OpenMode) (createPerms : UInt32) : ClientMessage where
  type := fxpOpen
  filename := some (cString path)
  flags := sftpOpenFlags (openModeToPosix mode)
  attr := some { flags := attrPermissions, permissions := createPerms }

theorem flags_openRequest (path : RemotePath) (mode : OpenMode) (perms : UInt32) :
    posixOpenFlags (openRequest path mode perms).flags = openModeToPosix mode :=
  posixOpenFlags_sftpOpenFlags _

theorem cString_cString (path : Bytes) : cString (cString path) = cString path := by
  refine cString_eq_self fun hzero ↦ ?_
  have hmem := List.mem_takeWhile_imp hzero
  simp at hmem

theorem path_openRequest (path : RemotePath) (mode : OpenMode) (perms : UInt32) :
    (openRequest path mode perms).path = cString path := cString_cString path

namespace ServedSession

variable (table : HandleTable) (options : Options)

/-- The server has answered a request. -/
def request (session : ServedSession) (message : ClientMessage) : ServedSession :=
  { session with world := (serveMessage table options message session.world).2 }

/-- `sftp_open`. The file keeps the state of the server while it is open. -/
def sftpOpen (session : ServedSession) (path : RemotePath) (mode : OpenMode)
    (createPerms : UInt32) : Except ℤ ServedStream × ServedSession :=
  let message := openRequest path mode createPerms
  let after := session.request table options message
  match answers table options message session.world with
  | [.handle handle] =>
    (.ok { file := {
      handle
      maxLength := session.maxLength
      maxLength_lt := session.maxLength_lt
      world := after.world } }, after)
  | [.status code _] => (.error code.number, after)
  | _ => (.error (-1), after)

/-- `Sftp::try_open`. -/
def tryOpen (session : ServedSession) (path : RemotePath) (mode : OpenMode)
    (createPerms : UInt32) : Result ServedStream × ServedSession :=
  if session.isOpen = false then
    (.error { code := .ssh .invalidHandle, operation := "Sftp::try_open" }, session)
  else match session.sftpOpen table options path mode createPerms with
    | (.error status, session) =>
      (.error (makeSftpErrorInfo status session.lastError "sftp_open"), session)
    | (.ok stream, session) => (.ok stream, session)

/-- The destructor of `File`: `sftp_close`. -/
def close (session : ServedSession) (stream : ServedStream) : ServedSession :=
  { session with world := stream.file.world }.request table options
    { type := fxpClose, handle := stream.file.handle }

end ServedSession

/-- The request of `sftp_fstat`. -/
def ServedStream.statRequest (stream : ServedStream) : ClientMessage where
  type := fxpFstat
  handle := stream.file.handle

/-- `File::try_stat`. The attributes come over the wire as `transfer` does it. -/
def ServedStream.tryStat (table : HandleTable) (options : Options)
    (transfer : NativeAttributes → NativeAttributes) : StateM ServedStream (Result Attributes) :=
  fun stream ↦
    if stream.file.isOpen = false then
      (.error { code := .ssh .invalidHandle, operation := "File::try_stat" }, stream)
    else
      let after := stream.request table options stream.statRequest
      match answers table options stream.statRequest stream.file.world with
      | [.attr attr] => (.ok (attributesFromNative (transfer attr)), after)
      | [.status code _] => (.error (makeSftpErrorInfo code.number {} "sftp_fstat"), after)
      | _ => (.error (makeSftpErrorInfo (-1) {} "sftp_fstat"), after)

/-! ### What holds between two calls -/

/-- The server's books are in order, its files have their inodes, and its kernel may fail but
does nothing by halves. -/
structure World.Sound (table : HandleTable) (world : World) : Prop where
  ledger : Ledger table none world
  backed : world.Backed
  whole : ∀ fault ∈ world.faults, ∀ count, fault ≠ .short count

variable {table : HandleTable} {options : Options} {world : World}

/-- A request that takes some of the faults to come. -/
theorem World.Sound.served (h : world.Sound table) (options : Options) (message : ClientMessage)
    (hfaults : ∀ fault ∈ (serveMessage table options message world).2.faults,
      fault ∈ world.faults) :
    (serveMessage table options message world).2.Sound table where
  ledger := serveMessage_ledger table options message world h.ledger
  backed := serveMessage_backed table options message world h.backed
  whole fault hfault := h.whole fault (hfaults fault hfault)

/-- The stream is the one that was opened, with requests made on it since. -/
structure Rests (table : HandleTable) (opened stream : ServedStream) : Prop where
  isOpen : stream.file.isOpen = opened.file.isOpen
  handle : stream.file.handle = opened.file.handle
  maxLength : stream.file.maxLength = opened.file.maxLength
  keeps : KeepsOpen opened.file.world stream.file.world
  sound : stream.file.world.Sound table

theorem rests_refl {opened : ServedStream} (h : opened.file.world.Sound table) :
    Rests table opened opened := ⟨rfl, rfl, rfl, keepsOpen_refl _, h⟩

variable {opened stream : ServedStream}

/-- The stream after a request, wherever the client stands then. -/
def ServedStream.asked (table : HandleTable) (options : Options) (stream : ServedStream)
    (message : ClientMessage) (offset : UInt64) (eof : Bool) : ServedStream where
  file := { stream.file.request table options message with offset := offset }
  eof := eof

theorem Rests.request (h : Rests table opened stream) {message : ClientMessage}
    (hkeeps : KeepsOpen stream.file.world
      (serveMessage table options message stream.file.world).2) (offset : UInt64) (eof : Bool) :
    Rests table opened (stream.asked table options message offset eof) where
  isOpen := h.isOpen
  handle := h.handle
  maxLength := h.maxLength
  keeps := h.keeps.trans hkeeps
  sound := h.sound.served options message hkeeps.faults

/-- A read leaves the stream, or leaves it as its request does. -/
theorem tryRead_keeps {inv : ServedStream → Prop} {length : ℕ}
    (h : ∀ stream offset eof, inv stream →
      inv (stream.asked table options (stream.readRequest length) offset eof)) :
    Keeps inv (ServedStream.tryRead table options length) := by
  intro stream hinv
  have hread : inv (stream.sftpRead table options length).2 := by
    unfold ServedStream.sftpRead
    split_ifs with hseen
    · exact hinv
    · unfold ServedStream.received
      split <;> exact h stream _ _ hinv
  unfold ServedStream.tryRead
  split_ifs with hopen
  · exact hinv
  · rcases hresult : stream.sftpRead table options length with ⟨status | data, later⟩ <;>
      rw [hresult] at hread <;> exact hread

theorem tryWrite_keeps {inv : ServedStream → Prop} {data : Bytes}
    (h : ∀ stream offset eof, inv stream →
      inv (stream.asked table options (stream.file.writeRequest data) offset eof)) :
    Keeps inv (ServedStream.tryWrite table options data) := by
  intro stream hinv
  have hwrite : inv { stream with file := (stream.file.sftpWrite table options data).2 } := by
    unfold ServedFile.sftpWrite
    dsimp only
    split <;> exact h stream _ _ hinv
  unfold ServedStream.tryWrite ServedFile.tryWrite
  by_cases hopen : stream.file.isOpen = false
  · rw [if_pos hopen]
    exact hinv
  · rw [if_neg hopen]
    rcases hresult : stream.file.sftpWrite table options data with ⟨status | count, later⟩ <;>
      rw [hresult] at hwrite <;> exact hwrite

/-- The requests that reading makes. -/
theorem rests_tryRead (length : ℕ) :
    Keeps (Rests table opened) (ServedStream.tryRead table options length) :=
  tryRead_keeps fun stream offset eof h ↦
    h.request (read_frame table options stream.file.world rfl).2 offset eof

theorem fs_tryRead (fs : FileSystem) (length : ℕ) :
    Keeps (fun stream ↦ stream.file.world.fs = fs) (ServedStream.tryRead table options length) :=
  tryRead_keeps fun stream offset eof h ↦ by
    have hfs := (read_frame table options stream.file.world
      (rfl : (stream.readRequest length).type = fxpRead)).1
    exact hfs.trans h

/-- An offset that a file can have is one for the kernel too. -/
theorem toInt64_nonneg {offset : UInt64} (h : offset.toNat < 2 ^ 63) : ¬ offset.toInt64 < 0 := by
  have hvalue : offset.toInt64.toInt = (offset.toNat : ℤ).bmod (2 ^ 64) := by
    rw [← Int64.toInt_toBitVec]
    change offset.toBitVec.toInt = _
    rw [BitVec.toInt_eq_toNat_bmod]
    rfl
  intro hneg
  have hneg : offset.toInt64.toInt < 0 := Int64.lt_iff_toInt_lt.mp hneg
  rw [hvalue, Int.bmod_def] at hneg
  omega

/-! ### Opening, inspecting and closing -/

/-- The stream is new: it is open on what the server opened for the request, and the client
stands at its beginning. -/
structure OpenedFor (table : HandleTable) (options : Options) (message : ClientMessage)
    (session : ServedSession) (canon : Path) (done : Done OpenFile) (stream : ServedStream) :
    Prop where
  opens : OpensTo options message session.world canon done
  fs : stream.file.world.fs = done.fs
  isOpen : stream.file.isOpen = true
  offset : stream.file.offset = 0
  maxLength : stream.file.maxLength = session.maxLength
  unseen : stream.eof = false
  sound : stream.file.world.Sound table
  places : ∃ slot entry, stream.file.handle = table.encode slot ∧
    Places table session.world slot entry done.value stream.file.world

/-- What becomes of a session that does not get the file it opens. -/
structure NotOpened (table : HandleTable) (options : Options) (message : ClientMessage)
    (session : ServedSession) (world : World) : Prop where
  keeps : KeepsOpen session.world world
  sound : world.Sound table
  fs : world.fs = session.world.fs ∨
    ∃ canon done, OpensTo options message session.world canon done ∧ world.fs = done.fs

variable {session : ServedSession}

theorem sftpOpen_of_handle {path : RemotePath} {mode : OpenMode} {createPerms : UInt32}
    {handle : Bytes}
    (h : answers table options (openRequest path mode createPerms) session.world =
      [.handle handle]) :
    session.sftpOpen table options path mode createPerms =
      let after := session.request table options (openRequest path mode createPerms)
      (.ok { file := {
        handle
        maxLength := session.maxLength
        maxLength_lt := session.maxLength_lt
        world := after.world } }, after) := by
  unfold ServedSession.sftpOpen
  dsimp only
  rw [h]

theorem sftpOpen_of_status {path : RemotePath} {mode : OpenMode} {createPerms : UInt32}
    {code : StatusCode} {text : String}
    (h : answers table options (openRequest path mode createPerms) session.world =
      [.status code text]) :
    session.sftpOpen table options path mode createPerms =
      (.error code.number, session.request table options (openRequest path mode createPerms)) := by
  unfold ServedSession.sftpOpen
  dsimp only
  rw [h]

/-- Why a file is not opened: the session was never opened, or the server says so. -/
def WhyNotOpened (session : ServedSession) (info : ErrorInfo) : Prop :=
  if session.isOpen = false then
    info = { code := .ssh .invalidHandle, operation := "Sftp::try_open" }
  else ∃ status, info = makeSftpErrorInfo status session.lastError "sftp_open"

/-- A session whose server does not open the file, or is not asked to. -/
def ServedSession.refused (session : ServedSession) (status : ℤ) : SftpSession where
  isOpen := session.isOpen
  refusal := some status
  lastError := session.lastError
  maxLength := session.maxLength
  maxLength_pos := session.maxLength_pos

theorem tryOpen_refused {info : ErrorInfo} (h : WhyNotOpened session info) (mode : OpenMode)
    (perms : UInt32) :
    ∃ status, (session.refused status).tryOpen mode perms = .error info := by
  unfold WhyNotOpened at h
  by_cases hopen : session.isOpen = false
  · rw [if_pos hopen] at h
    exact ⟨0, h ▸ if_pos hopen⟩
  · rw [if_neg hopen] at h
    obtain ⟨status, rfl⟩ := h
    exact ⟨status, if_neg hopen⟩

/-- Opening a file fails, or opens it. -/
theorem tryOpen_cases (options : Options) (hsound : session.world.Sound table) (path : RemotePath)
    (mode : OpenMode) (createPerms : UInt32) :
    (∃ info world, session.tryOpen table options path mode createPerms =
        (.error info, { session with world := world }) ∧ WhyNotOpened session info ∧
      NotOpened table options (openRequest path mode createPerms) session world) ∨
    ∃ canon done stream, session.tryOpen table options path mode createPerms =
        (.ok stream, { session with world := stream.file.world }) ∧ session.isOpen = true ∧
      OpenedFor table options (openRequest path mode createPerms) session canon done stream := by
  by_cases hopen : session.isOpen = false
  · have hwhy : WhyNotOpened session
        { code := .ssh .invalidHandle, operation := "Sftp::try_open" } := by
      unfold WhyNotOpened
      rw [if_pos hopen]
    exact .inl ⟨_, session.world, if_pos hopen, hwhy, keepsOpen_refl _, hsound, .inl rfl⟩
  have hwhy (status : ℤ) :
      WhyNotOpened session (makeSftpErrorInfo status session.lastError "sftp_open") := by
    unfold WhyNotOpened
    rw [if_neg hopen]
    exact ⟨status, rfl⟩
  obtain ⟨answer, hanswers, houtcome⟩ := open_outcome table options
    (rfl : (openRequest path mode createPerms).type = fxpOpen) session.world
  have hserved := hsound.served options (openRequest path mode createPerms)
  have htry : session.tryOpen table options path mode createPerms =
      match session.sftpOpen table options path mode createPerms with
      | (.error status, session) =>
        (.error (makeSftpErrorInfo status session.lastError "sftp_open"), session)
      | (.ok stream, session) => (.ok stream, session) := if_neg hopen
  generalize hafter : serveMessage table options (openRequest path mode createPerms)
    session.world = after at houtcome hserved
  have hrequest : session.request table options (openRequest path mode createPerms) =
      { session with world := after.2 } := by
    unfold ServedSession.request
    rw [hafter]
  obtain ⟨_, after⟩ := after
  dsimp only at houtcome hserved
  cases houtcome with
  | refused hcode hfs hkeeps =>
    rw [sftpOpen_of_status hanswers, hrequest] at htry
    exact .inl ⟨_, after, htry, hwhy _, hkeeps, hserved hkeeps.faults, .inl hfs⟩
  | abandoned hopens hfs hkeeps =>
    rw [sftpOpen_of_status hanswers, hrequest] at htry
    exact .inl ⟨_, after, htry, hwhy _, hkeeps, hserved hkeeps.faults, .inr ⟨_, _, hopens, hfs⟩⟩
  | placed hopens hfs hplaces =>
    rw [sftpOpen_of_handle hanswers, hrequest] at htry
    exact .inr ⟨_, _, _, htry, by simpa using hopen, hopens, hfs, rfl, rfl, rfl, rfl,
      hserved hplaces.faults, _, _, rfl, hplaces⟩

theorem OpensTo.unique {message : ClientMessage} {start : World} {canon other : Path}
    {done otherDone : Done OpenFile} (h : OpensTo options message start canon done)
    (hother : OpensTo options message start other otherDone) :
    other = canon ∧ otherDone = done := by
  obtain ⟨-, -, hcanon, -⟩ := h.resolves
  obtain ⟨-, -, hcanon', -⟩ := hother.resolves
  obtain rfl := Except.ok.inj (hcanon.symm.trans hcanon')
  exact ⟨rfl, Except.ok.inj (hother.opens.symm.trans h.opens)⟩

/-- With nothing in its way a file is opened. -/
theorem tryOpen_opens {path : RemotePath} {mode : OpenMode} {createPerms : UInt32} {canon : Path}
    {done : Done OpenFile} {slot : ℕ} (hsound : session.world.Sound table)
    (hopen : session.isOpen = true) (hfaults : session.world.faults = [])
    (hopens : OpensTo options (openRequest path mode createPerms) session.world canon done)
    (hpick : table.pick session.world.slots = some slot) :
    ∃ stream, session.tryOpen table options path mode createPerms =
        (.ok stream, { session with world := stream.file.world }) ∧
      OpenedFor table options (openRequest path mode createPerms) session canon done stream := by
  have hanswers : answers table options (openRequest path mode createPerms) session.world =
      [.handle (table.encode slot)] := open_answers rfl hfaults hopens hpick
  have hnot : ¬ session.isOpen = false := by rw [hopen]; exact Bool.noConfusion
  have htry : ∃ stream after, session.tryOpen table options path mode createPerms =
      (.ok stream, after) := by
    unfold ServedSession.tryOpen
    rw [if_neg hnot, sftpOpen_of_handle hanswers]
    exact ⟨_, _, rfl⟩
  obtain ⟨stream, after, htry⟩ := htry
  rcases tryOpen_cases options hsound path mode createPerms with
    ⟨info, world, herror, -⟩ | ⟨other, otherDone, stream, hstream, -, hopened⟩
  · exact nomatch congrArg Prod.fst (htry.symm.trans herror)
  · obtain ⟨rfl, rfl⟩ := hopens.unique hopened.opens
    exact ⟨stream, hstream, hopened⟩

variable {message : ClientMessage} {canon : Path} {done : Done OpenFile}

theorem OpenedFor.opensFile (h : OpenedFor table options message session canon done opened) :
    OpensFile table opened.file.world opened.file.handle done.value := by
  obtain ⟨slot, entry, hhandle, hplaces⟩ := h.places
  rw [hhandle]
  exact hplaces.opensFile (keepsOpen_refl _)

theorem OpenedFor.openOn (h : OpenedFor table options message session canon done opened)
    (hplain : (posixOpenFlags message.flags).append = false) : opened.OpenOn table done.value where
  opens := h.opensFile
  plain := (congrArg OpenFlags.append (flags_of_openFile h.opens.opens)).trans hplain
  backed := h.sound.backed
  whole := h.sound.whole
  unseen := h.unseen
  requests := h.maxLength ▸ session.maxLength_pos

/-- An open file stays the one that was opened. -/
theorem Rests.opensFile (h : OpenedFor table options message session canon done opened)
    (hrests : Rests table opened stream) :
    OpensFile table stream.file.world stream.file.handle done.value := by
  rw [hrests.handle]
  exact (ServedFile.opensFile_congr hrests.keeps.fds hrests.keeps.slots).mpr h.opensFile

/-- Closing a file changes no file and leaves the descriptors and the handles as they were before
it was opened. -/
theorem close_opened_file (hsound : session.world.Sound table)
    (h : OpenedFor table options message session canon done opened)
    (hrests : Rests table opened stream) (left : ServedSession) :
    ∃ world, left.close table options stream = { left with world := world } ∧
      world.fs = stream.file.world.fs ∧ KeepsOpen session.world world ∧ world.Sound table := by
  obtain ⟨slot, entry, hhandle, hplaces⟩ := h.places
  obtain ⟨-, hfs, hkeeps⟩ := close_placed table options
    (rfl : ({ type := fxpClose, handle := stream.file.handle } : ClientMessage).type = fxpClose)
    hplaces hrests.keeps hrests.sound.ledger (hrests.handle.trans hhandle)
  exact ⟨_, rfl, hfs, hkeeps, serveMessage_ledger table options _ _ hrests.sound.ledger,
    serveMessage_backed table options _ _ hrests.sound.backed,
    fun fault hfault ↦ hsound.whole fault (hkeeps.faults fault hfault)⟩

theorem requestLength_default_pos : 0 < 32768 := by decide

/-- A session with the server of `/srv`, where `f` is. -/
def singleFileSession : ServedSession where
  maxLength_pos := requestLength_default_pos
  maxLength_lt := maxLength_default_lt
  world := World.begin singleFile [] [] []

theorem singleFileSession_sound : singleFileSession.world.Sound HandleTable.firstFree where
  ledger := ledger_begin HandleTable.firstFree singleFile [] [] []
  backed := singleFile_backed []
  whole _ hfault := absurd hfault List.not_mem_nil

end LibSshpp.SftpServer
