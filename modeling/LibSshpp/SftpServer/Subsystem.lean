import LibSshpp.Foundation.Error
import LibSshpp.Program.StateTriple
import LibSshpp.SftpServer.Session

/-!
`SftpSubsystemHandler`: the SFTP server's message loop, with one function for each
message type it serves.
-/

set_option autoImplicit false
set_option relaxedAutoImplicit false

namespace LibSshpp.SftpServer

open Posix Sftp

/-- `SftpSubsystemHandler::Options`. -/
structure Options where
  root : Path
  readOnly : Bool := false
  followSymlinksOutOfRoot : Bool := false
  maxFileSize : UInt64 := 0

/-! ### Helpers -/

/-- `close_handle` on an entry that is not null. -/
def closeHandle (entry : HandleEntry) : ServerM Unit :=
  if entry.isDir then
    if entry.dir ≠ 0 then closedir entry.dir else pure ()
  else
    if 0 ≤ entry.fd then close entry.fd else pure ()

/-- Pads a text with blanks on the left. -/
def padLeft (width : ℕ) (text : Bytes) : Bytes :=
  List.replicate (width - text.length) 0x20 ++ text

/-- Pads a text with blanks on the right. -/
def padRight (width : ℕ) (text : Bytes) : Bytes :=
  text ++ List.replicate (width - text.length) 0x20

def signedDecimal (n : Int64) : Bytes :=
  if n < 0 then 0x2d :: decimal n.toInt.natAbs else decimal n.toInt.natAbs

/-- The permission letters of a mode; the bit of place `i` is `0400 >> i`. -/
def permissionLetters (mode : UInt32) : Bytes :=
  ((List.range 9).zip (ascii "rwxrwxrwx")).map fun (i, letter) ↦
    if mode &&& (0o400 >>> i.toUInt32) ≠ 0 then letter else 0x2d

/-- `format_longname`, cut off where its buffer of 512 bytes ends. -/
def formatLongname (name : Bytes) (st : Stat) : Bytes :=
  let kind : UInt8 :=
    if isDirectoryMode st.mode then 0x64 else if isSymlinkMode st.mode then 0x6c else 0x2d
  List.take 511 <| List.intercalate [0x20]
    [kind :: permissionLetters st.mode, padLeft 3 (decimal 1),
      padRight 8 (decimal st.uid.toNat), padRight 8 (decimal st.gid.toNat),
      padLeft 10 (signedDecimal st.size), cString name]

/-- `posix_open_flags`. -/
def posixOpenFlags (sftpFlags : UInt32) : OpenFlags where
  access :=
    if sftpFlags &&& fxfRead ≠ 0 ∧ sftpFlags &&& fxfWrite ≠ 0 then .readWrite
    else if sftpFlags &&& fxfWrite ≠ 0 then .writeOnly
    else .readOnly
  creat := sftpFlags &&& fxfCreat ≠ 0
  trunc := sftpFlags &&& fxfTrunc ≠ 0
  excl := sftpFlags &&& fxfExcl ≠ 0
  append := sftpFlags &&& fxfAppend ≠ 0

/-- `resolve_sftp_path`: joins the root with a client's path and checks that the result
stays under the root. -/
def resolveSftpPath (root : Path) (sftpPath : Bytes) : ServerM (Result Path) := do
  let clean := sftpPath.dropWhile (· = 0x2f)
  let rel := if clean = [] then Path.ofBytes [0x2e] else Path.ofBytes clean
  match ← weaklyCanonical root with
  | .error error =>
    return .error ⟨.ssh .invalidArgument, strerror error, "resolve_sftp_path"⟩
  | .ok canonRoot =>
    match ← weaklyCanonical (root.join rel) with
    | .error error =>
      return .error ⟨.ssh .invalidArgument, strerror error, "resolve_sftp_path"⟩
    | .ok canon =>
      if canonRoot.elements <+: canon.elements then return .ok canon
      else return .error ⟨.ssh .invalidArgument, "path escapes the sftp root", "resolve_sftp_path"⟩

/-- `to_client_path`. -/
def toClientPath (root canon : Path) : ServerM Bytes := do
  match ← weaklyCanonical root with
  | .error _ => return [0x2f]
  | .ok canonRoot =>
    let rel := canon.lexicallyRelative canonRoot
    if rel.comps = [] ∨ rel.comps = [dot] then return [0x2f] else return 0x2f :: rel.text

/-! ### The requests -/

variable (table : HandleTable) (options : Options) (message : ClientMessage)

/-- `sftp_client_message_get_filename` as the server reads it. -/
def ClientMessage.path : Bytes := cString (message.filename.getD [])

/-- `sftp_client_message_get_data` where the server reads it as a path. -/
def ClientMessage.dataPath : Bytes := cString (message.data.getD [])

/-- The mode a request asks for. -/
def ClientMessage.mode (default : UInt32) : UInt32 :=
  match message.attr with
  | some attr => if attr.flags &&& attrPermissions ≠ 0 then attr.permissions &&& 0o7777 else default
  | none => default

/-- `deny_if_read_only`. -/
def denyIfReadOnly : ServerM Bool :=
  if options.readOnly then do
    replyStatus .permissionDenied "read-only sftp root"
    return true
  else return false

def serveRealpath : ServerM Unit := do
  match ← resolveSftpPath options.root message.path with
  | .error _ => replyStatus .noSuchFile ""
  | .ok resolved =>
    let attr : NativeAttributes :=
      match ← lstat resolved with
      | .ok st => fillAttributes st
      | .error _ => {}
    let clientPath ← toClientPath options.root resolved
    reply (.name clientPath attr)

def serveStat : ServerM Unit := do
  match ← resolveSftpPath options.root message.path with
  | .error _ => replyStatus .noSuchFile ""
  | .ok resolved =>
    match ← if message.type = fxpLstat ∨ options.followSymlinksOutOfRoot = false then
        lstat resolved
      else stat resolved with
    | .error error => replyStatus .noSuchFile (strerror error)
    | .ok st => reply (.attr (fillAttributes st))

def serveFstat : ServerM Unit := do
  match ← table.sftpHandle message.handle with
  | none => replyStatus .invalidHandle ""
  | some entry =>
    match ← if entry.isDir then stat entry.path else fstat entry.fd with
    | .error error => replyStatus .failure (strerror error)
    | .ok st => reply (.attr (fillAttributes st))

/-- Gives an entry to the client, or closes it if the table has no place for it. -/
def replyHandle (entry : HandleEntry) : ServerM Unit := do
  match ← table.sftpHandleAlloc entry with
  | none =>
    closeHandle entry
    replyStatus .failure ""
  | some handle => reply (.handle handle)

def serveOpendir : ServerM Unit := do
  match ← resolveSftpPath options.root message.path with
  | .error _ => replyStatus .noSuchFile ""
  | .ok resolved =>
    match ← opendir resolved with
    | .error error => replyStatus .noSuchFile (strerror error)
    | .ok dir =>
      let address ← newAddress
      replyHandle table { address, isDir := true, dir, path := resolved }

/-- The loop of a READDIR request from a name that has been read on. `fuel` bounds the
number of names it reads. -/
def readdirLoop (dir : ℕ) (path : Path) : ℕ → Name → ℕ → ServerM Unit
  | 0, _, _ => pure ()
  | fuel + 1, name, added => do
    match ← lstat (path.join (Path.ofBytes name)) with
    | .error _ =>
      match ← readdir dir with
      | none => pure ()
      | some next => readdirLoop dir path fuel next added
    | .ok st =>
      reply (.namesAdd name (formatLongname name st) (fillAttributes st))
      if 64 ≤ added + 1 then pure ()
      else
        match ← readdir dir with
        | none => pure ()
        | some next => readdirLoop dir path fuel next (added + 1)

/-- The names that a stream still has. -/
def pendingNames (address : ℕ) : ServerM ℕ := fun world ↦
  (((world.streams.lookup address).map fun stream ↦ stream.pending.length).getD 0, world)

/-- A name that is read is taken from those the stream still has. -/
theorem pendingNames_of_readdir {address : ℕ} {world after : World} {name : Name}
    (h : readdir address world = (some name, after)) :
    (pendingNames address after).1 < (pendingNames address world).1 := by
  unfold readdir at h
  split at h
  · exact nomatch h
  · exact nomatch h
  · next stream hstream _ =>
    obtain ⟨hhead, rfl⟩ := Prod.mk.inj h
    have hlength : 0 < stream.pending.length :=
      List.length_pos_of_mem (List.mem_of_head? hhead)
    simp only [pendingNames, World.log, List.lookup_cons_self, hstream, Option.map_some,
      Option.getD_some, List.length_tail]
    omega

theorem pendingNames_of_lstat {path : Path} {world after : World} {result : Except Errno Stat}
    (h : lstat path world = (result, after)) (address : ℕ) :
    (pendingNames address after).1 = (pendingNames address world).1 := by
  have hstreams : after.streams = world.streams := by
    unfold lstat perform at h
    split at h
    · exact (Prod.mk.inj h).2 ▸ rfl
    · split at h <;> exact (Prod.mk.inj h).2 ▸ rfl
  unfold pendingNames
  rw [hstreams]

/-- The loop of a READDIR request ends before its fuel does: one more unit changes nothing. -/
theorem readdirLoop_fuel (dir : ℕ) (path : Path) {fuel : ℕ} {world : World}
    (h : (pendingNames dir world).1 < fuel) (name : Name) (added : ℕ) :
    readdirLoop dir path (fuel + 1) name added world =
      readdirLoop dir path fuel name added world := by
  induction fuel generalizing world name added with
  | zero => exact absurd h (Nat.not_lt_zero _)
  | succ fuel ih =>
    have hnext : ∀ (after : World) (added : ℕ),
        (pendingNames dir after).1 = (pendingNames dir world).1 →
          (readdir dir >>= fun next ↦ match next with
            | none => pure ()
            | some next => readdirLoop dir path (fuel + 1) next added) after =
          (readdir dir >>= fun next ↦ match next with
            | none => pure ()
            | some next => readdirLoop dir path fuel next added) after := by
      intro after added hsame
      refine Program.bind_congr_at fun next later hread ↦ ?_
      cases next with
      | none => rfl
      | some next =>
        have hless := pendingNames_of_readdir hread
        exact ih (by omega) next added
    rw [readdirLoop, readdirLoop]
    refine Program.bind_congr_at fun result after hcall ↦ ?_
    have hsame := pendingNames_of_lstat hcall dir
    cases result with
    | error error => exact hnext after added hsame
    | ok st =>
      refine Program.bind_congr_at fun _ replied hreply ↦ ?_
      obtain rfl : after.log _ = replied := (Prod.mk.inj hreply).2
      by_cases hfull : 64 ≤ added + 1
      · simp only [if_pos hfull]
      · simp only [if_neg hfull]
        exact hnext _ (added + 1) hsame

def serveReaddir : ServerM Unit := do
  match ← table.sftpHandle message.handle with
  | none => replyStatus .invalidHandle ""
  | some entry =>
    if entry.isDir = false then replyStatus .invalidHandle ""
    else
      match ← readdir entry.dir with
      | none => replyStatus .eof ""
      | some name =>
        let pending ← pendingNames entry.dir
        readdirLoop entry.dir entry.path (pending + 1) name 0
        reply .names

/-- Whether an OPEN request asks for more than reading. -/
def ClientMessage.wantsWrite : Bool :=
  message.flags &&& (fxfWrite ||| fxfCreat ||| fxfTrunc ||| fxfAppend) ≠ 0

def serveOpen : ServerM Unit := do
  if ← if message.wantsWrite then denyIfReadOnly options else pure false then pure ()
  else
    match ← resolveSftpPath options.root message.path with
    | .error _ => replyStatus .noSuchFile ""
    | .ok resolved =>
      match ← openFile resolved (posixOpenFlags message.flags) (message.mode 0o644) with
      | .error error =>
        replyStatus (if error = .enoent then .noSuchFile else .failure) (strerror error)
      | .ok fd =>
        let address ← newAddress
        replyHandle table { address, isDir := false, fd, path := resolved }

def serveRead : ServerM Unit := do
  match ← table.sftpHandle message.handle with
  | none => replyStatus .invalidHandle ""
  | some entry =>
    if entry.isDir then replyStatus .invalidHandle ""
    else
      match ← pread entry.fd (min message.len.toNat (64 * 1024)) message.offset.toInt64 with
      | .error error => replyStatus .failure (strerror error)
      | .ok [] => replyStatus .eof ""
      | .ok bytes => reply (.data bytes)

def serveWrite : ServerM Unit := do
  if ← denyIfReadOnly options then pure ()
  else
    match ← table.sftpHandle message.handle with
    | none => replyStatus .invalidHandle ""
    | some entry =>
      if entry.isDir then replyStatus .invalidHandle ""
      else
        let data := message.data.getD []
        let len : UInt32 := data.length.toUInt32
        if options.maxFileSize ≠ 0 ∧ message.offset + len.toUInt64 > options.maxFileSize then
          replyStatus .permissionDenied "file too large"
        else
          match ← pwrite entry.fd (data.take len.toNat) message.offset.toInt64 with
          | .error error => replyStatus .failure (strerror error)
          | .ok _ => replyStatus .ok ""

def serveClose : ServerM Unit := do
  match ← table.sftpHandle message.handle with
  | none => pure ()
  | some entry =>
    table.sftpHandleRemove entry
    closeHandle entry
  replyStatus .ok ""

def serveRemove : ServerM Unit := do
  if ← denyIfReadOnly options then pure ()
  else
    match ← resolveSftpPath options.root message.path with
    | .error _ => replyStatus .noSuchFile ""
    | .ok resolved =>
      match ← unlink resolved with
      | .error _ => replyStatus .noSuchFile ""
      | .ok _ => replyStatus .ok ""

def serveMkdir : ServerM Unit := do
  if ← denyIfReadOnly options then pure ()
  else
    match ← resolveSftpPath options.root message.path with
    | .error _ => replyStatus .failure "invalid path"
    | .ok resolved =>
      match ← mkdir resolved (message.mode 0o755) with
      | .error error => replyStatus .failure (strerror error)
      | .ok _ => replyStatus .ok ""

def serveRmdir : ServerM Unit := do
  if ← denyIfReadOnly options then pure ()
  else
    match ← resolveSftpPath options.root message.path with
    | .error _ => replyStatus .failure ""
    | .ok resolved =>
      match ← rmdir resolved with
      | .error _ => replyStatus .failure ""
      | .ok _ => replyStatus .ok ""

def serveRename : ServerM Unit := do
  if ← denyIfReadOnly options then pure ()
  else
    let source ← resolveSftpPath options.root message.path
    let dest ← resolveSftpPath options.root message.dataPath
    match source, dest with
    | .ok source, .ok dest =>
      match ← rename source dest with
      | .error _ => replyStatus .failure ""
      | .ok _ => replyStatus .ok ""
    | _, _ => replyStatus .failure ""

def serveReadlink : ServerM Unit := do
  match ← resolveSftpPath options.root message.path with
  | .error _ => replyStatus .noSuchFile ""
  | .ok resolved =>
    match ← readlink resolved 4095 with
    | .error _ => replyStatus .noSuchFile ""
    | .ok target => reply (.name (cString target) {})

/-- For SYMLINK libssh hands over the target as the file name and the path of the new
link as the data. -/
def serveSymlink : ServerM Unit := do
  if ← denyIfReadOnly options then pure ()
  else
    match ← resolveSftpPath options.root message.dataPath with
    | .error _ => replyStatus .failure ""
    | .ok linkPath =>
      match ← symlink message.path linkPath with
      | .error _ => replyStatus .failure ""
      | .ok _ => replyStatus .ok ""

/-- The `switch` over the message type. -/
def serveRequest : ServerM Unit :=
  if message.type = fxpRealpath then serveRealpath options message
  else if message.type = fxpStat ∨ message.type = fxpLstat then serveStat options message
  else if message.type = fxpFstat then serveFstat table message
  else if message.type = fxpOpendir then serveOpendir table options message
  else if message.type = fxpReaddir then serveReaddir table message
  else if message.type = fxpOpen then serveOpen table options message
  else if message.type = fxpRead then serveRead table message
  else if message.type = fxpWrite then serveWrite table options message
  else if message.type = fxpClose then serveClose table message
  else if message.type = fxpRemove then serveRemove options message
  else if message.type = fxpMkdir then serveMkdir options message
  else if message.type = fxpRmdir then serveRmdir options message
  else if message.type = fxpRename then serveRename options message
  else if message.type = fxpReadlink then serveReadlink options message
  else if message.type = fxpSymlink then serveSymlink options message
  else replyStatus .opUnsupported "unsupported sftp request"

/-- One turn of the message loop. -/
def serveMessage : ServerM Unit := do
  log (.received message)
  serveRequest table options message
  log (.freed message)

/-- The answers of libssh before the loop: whether `sftp_server_new` returns a session
and whether `sftp_server_init` succeeds. -/
structure Startup where
  created : Bool := true
  initialized : Bool := true

/-- `try_serve` on the messages that arrive until `sftp_get_client_message` returns null. -/
def tryServe (startup : Startup) (messages : List ClientMessage) : ServerM (Result Unit) := do
  if startup.created = false then
    return .error ⟨.ssh .sftpUnavailable, "", "sftp_server_new"⟩
  else if startup.initialized = false then
    return .error ⟨.ssh .sftpUnavailable, "", "sftp_server_init"⟩
  else
    Program.runAll (serveMessage table options) messages
    return .ok ()

/-- The messages that `try_serve` fetches. -/
def Startup.served (startup : Startup) (messages : List ClientMessage) : List ClientMessage :=
  if startup.created = true ∧ startup.initialized = true then messages else []

theorem tryServe_world (table : HandleTable) (options : Options) (startup : Startup)
    (messages : List ClientMessage) (world : World) :
    (tryServe table options startup messages world).2 =
      Program.stateAfter (serveMessage table options) (startup.served messages) world := by
  unfold tryServe Startup.served
  rcases startup with ⟨_ | _, _ | _⟩ <;> rfl

end LibSshpp.SftpServer
