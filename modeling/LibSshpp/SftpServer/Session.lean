import LibSshpp.Posix.CanonicalPath
import LibSshpp.Sftp.Attributes

/-!
What the SFTP server works on: the file system, the process's descriptors and
directory streams, libssh's handle table, and a trace of everything the server does.
Every call can fail as the real one can: the list of faults says which of the coming
calls fail, or read or write less than asked for.
-/

set_option autoImplicit false
set_option relaxedAutoImplicit false

namespace LibSshpp.SftpServer

open Posix Sftp

/-! ### Messages and replies -/

/-- A request as libssh hands it over. A null pointer is `none`; a null handle
behaves as the empty one. -/
structure ClientMessage where
  type : UInt8
  filename : Option Bytes := none
  flags : UInt32 := 0
  attr : Option NativeAttributes := none
  offset : UInt64 := 0
  len : UInt32 := 0
  handle : Bytes := []
  data : Option Bytes := none
  deriving DecidableEq, Repr

def fxpOpen : UInt8 := 3
def fxpClose : UInt8 := 4
def fxpRead : UInt8 := 5
def fxpWrite : UInt8 := 6
def fxpLstat : UInt8 := 7
def fxpFstat : UInt8 := 8
def fxpOpendir : UInt8 := 11
def fxpReaddir : UInt8 := 12
def fxpRemove : UInt8 := 13
def fxpMkdir : UInt8 := 14
def fxpRmdir : UInt8 := 15
def fxpRealpath : UInt8 := 16
def fxpStat : UInt8 := 17
def fxpRename : UInt8 := 18
def fxpReadlink : UInt8 := 19
def fxpSymlink : UInt8 := 20

def fxfRead : UInt32 := 0x01
def fxfWrite : UInt32 := 0x02
def fxfAppend : UInt32 := 0x04
def fxfCreat : UInt32 := 0x08
def fxfTrunc : UInt32 := 0x10
def fxfExcl : UInt32 := 0x20

/-- The `SSH_FX_` codes the server replies with. -/
inductive StatusCode
  | ok | eof | noSuchFile | permissionDenied | failure | opUnsupported | invalidHandle
  deriving DecidableEq, Repr

/-- The `sftp_reply_` calls. -/
inductive Reply
  | status (code : StatusCode) (message : String)
  | name (path : Bytes) (attr : NativeAttributes)
  | attr (attr : NativeAttributes)
  | handle (handle : Bytes)
  | data (bytes : Bytes)
  | namesAdd (name longname : Bytes) (attr : NativeAttributes)
  | names
  deriving DecidableEq, Repr

/-- `sftp_reply_names_add`, which only collects an entry for a later `sftp_reply_names`. -/
def Reply.collects : Reply → Bool
  | .namesAdd _ _ _ => true
  | _ => false

/-- Whether the call sends a packet, entries having been `collected` for its message or
not. Without one `sftp_reply_names` has no name buffer to send. -/
def Reply.sends (collected : Bool) : Reply → Bool
  | .namesAdd _ _ _ => false
  | .names => collected
  | _ => true

/-- How many packets the calls for one message send. -/
def packetsSent : Bool → List Reply → ℕ
  | _, [] => 0
  | collected, reply :: replies =>
    (reply.sends collected).toNat + packetsSent (collected || reply.collects) replies

/-! ### The trace -/

/-- What the server has to give back: a descriptor or a directory stream. -/
inductive Resource
  | fd (number : ℤ)
  | stream (address : ℕ)
  deriving DecidableEq, Repr

inductive PosixCall
  | lstat (path : Path) | stat (path : Path) | fstat (fd : ℤ)
  | opendir (path : Path) | readdir (stream : ℕ)
  | openFile (path : Path) (flags : OpenFlags)
  | pread (fd : ℤ) | pwrite (fd : ℤ)
  | unlink (path : Path) | mkdir (path : Path) | rmdir (path : Path)
  | rename (source dest : Path) | readlink (path : Path) | symlink (path : Path)
  deriving DecidableEq, Repr

inductive Event
  | received (message : ClientMessage)
  | freed (message : ClientMessage)
  | replied (reply : Reply)
  | called (call : PosixCall) (touched : List Loc)
  | opened (resource : Resource)
  | closed (resource : Resource)
  deriving DecidableEq, Repr

/-! ### The state -/

/-- `HandleEntry`, with the address at which it was allocated. The stream 0 is the null
pointer. -/
structure HandleEntry where
  address : ℕ
  isDir : Bool := false
  fd : ℤ := -1
  dir : ℕ := 0
  path : Path
  deriving DecidableEq, Repr

/-- How a coming call goes wrong. -/
inductive Fault
  | none
  | fail (error : Errno)
  | short (count : ℕ)
  deriving DecidableEq, Repr

structure World where
  fs : FileSystem
  fds : List (ℤ × OpenFile) := []
  streams : List (ℕ × DirStream) := []
  slots : ℕ → Option HandleEntry := fun _ ↦ none
  nextAddress : ℕ := 0
  faults : List Fault := []
  trace : List Event := []

abbrev ServerM := StateM World

namespace World

def fault (world : World) : Fault := world.faults.headD .none

def dropFault (world : World) : World := { world with faults := world.faults.tail }

def log (world : World) (event : Event) : World := { world with trace := world.trace ++ [event] }

end World

def log (event : Event) : ServerM Unit := fun world ↦ ((), world.log event)

def reply (reply : Reply) : ServerM Unit := log (.replied reply)

def replyStatus (code : StatusCode) (message : String) : ServerM Unit :=
  reply (.status code message)

/-! ### libssh's handle table -/

/-- What is known of libssh's handle table: it has a bounded number of slots, an entry
is stored in a free one, and the handle given out for a slot leads back to it. -/
structure HandleTable where
  size : ℕ
  pick : (ℕ → Option HandleEntry) → Option ℕ
  encode : ℕ → Bytes
  decode : Bytes → Option ℕ
  pick_free : ∀ {slots slot}, pick slots = some slot → slot < size ∧ slots slot = none
  decode_encode : ∀ {slot}, slot < size → decode (encode slot) = some slot

namespace HandleTable

variable (table : HandleTable)

/-- `sftp_handle_alloc`, which can also fail for want of memory. -/
def sftpHandleAlloc (entry : HandleEntry) : ServerM (Option Bytes) := fun world ↦
  match world.fault with
  | .fail _ => (none, world.dropFault)
  | _ =>
    match table.pick world.slots with
    | none => (none, world.dropFault)
    | some slot =>
      (some (table.encode slot),
        { world.dropFault with slots := Function.update world.slots slot (some entry) })

/-- `sftp_handle`. -/
def sftpHandle (handle : Bytes) : ServerM (Option HandleEntry) := fun world ↦
  ((table.decode handle).bind world.slots, world)

/-- The first slot that holds the entry at an address. -/
def slotOf (slots : ℕ → Option HandleEntry) (address : ℕ) : Option ℕ :=
  (List.range table.size).find? fun slot ↦ (slots slot).any fun entry ↦ entry.address = address

/-- `sftp_handle_remove`. -/
def sftpHandleRemove (entry : HandleEntry) : ServerM Unit := fun world ↦
  ((), match table.slotOf world.slots entry.address with
    | none => world
    | some slot => { world with slots := Function.update world.slots slot none })

end HandleTable

/-- A table of 256 slots whose first free one is picked; a handle is the number of its
slot in four bytes, lowest first. -/
def HandleTable.firstFree : HandleTable where
  size := 256
  pick slots := (List.range 256).find? fun slot ↦ (slots slot).isNone
  encode slot := [slot.toUInt8, 0, 0, 0]
  decode handle :=
    match handle with
    | [slot, 0, 0, 0] => some slot.toNat
    | _ => none
  pick_free h :=
    ⟨List.mem_range.mp (List.mem_of_find?_eq_some h), by simpa using List.find?_some h⟩
  decode_encode h := by
    simp only [Nat.toUInt8, Option.some.injEq]
    exact Nat.mod_eq_of_lt h

/-- The allocation of a handle entry. -/
def newAddress : ServerM ℕ := fun world ↦
  (world.nextAddress, { world with nextAddress := world.nextAddress + 1 })

/-! ### POSIX calls -/

/-- The lowest number that is not in use. -/
def lowestFree (used : List ℕ) : ℕ :=
  ((List.range (used.length + 1)).find? fun number ↦ number ∉ used).getD used.length

/-- What a fault leaves of a number of bytes. -/
def Fault.limit : Fault → ℕ → ℕ
  | .short count, size => min count size
  | _, size => size

/-- A call to the kernel: it fails by a fault or by itself, or has its effect. -/
def perform {α : Type} (call : PosixCall) (op : World → Except Errno (Done α)) :
    ServerM (Except Errno α) := fun world ↦
  match world.fault with
  | .fail error => (.error error, world.dropFault.log (.called call []))
  | _ =>
    match op world with
    | .error error => (.error error, world.dropFault.log (.called call []))
    | .ok done =>
      (.ok done.value, { world.dropFault with fs := done.fs }.log (.called call done.touched))

def lstat (path : Path) : ServerM (Except Errno Stat) :=
  perform (.lstat path) fun world ↦ world.fs.lstat path

def stat (path : Path) : ServerM (Except Errno Stat) :=
  perform (.stat path) fun world ↦ world.fs.stat path

def unlink (path : Path) : ServerM (Except Errno Unit) :=
  perform (.unlink path) fun world ↦ world.fs.unlink path

def mkdir (path : Path) (mode : UInt32) : ServerM (Except Errno Unit) :=
  perform (.mkdir path) fun world ↦ world.fs.mkdir path mode

def rmdir (path : Path) : ServerM (Except Errno Unit) :=
  perform (.rmdir path) fun world ↦ world.fs.rmdir path

def rename (source dest : Path) : ServerM (Except Errno Unit) :=
  perform (.rename source dest) fun world ↦ world.fs.rename source dest

def readlink (path : Path) (size : ℕ) : ServerM (Except Errno Bytes) :=
  perform (.readlink path) fun world ↦ world.fs.readlink path size

def symlink (target : Bytes) (path : Path) : ServerM (Except Errno Unit) :=
  perform (.symlink path) fun world ↦ world.fs.symlink target path

/-- A call on a descriptor, which has to be open. -/
def onDescriptor {α : Type} (fd : ℤ) (op : OpenFile → Except Errno (Done α)) (world : World) :
    Except Errno (Done α) :=
  match world.fds.lookup fd with
  | none => .error .ebadf
  | some file => op file

def fstat (fd : ℤ) : ServerM (Except Errno Stat) :=
  perform (.fstat fd) fun world ↦ onDescriptor fd world.fs.fstat world

def pread (fd : ℤ) (size : ℕ) (offset : Int64) : ServerM (Except Errno Bytes) :=
  perform (.pread fd) fun world ↦
    onDescriptor fd (fun file ↦ world.fs.pread file (world.fault.limit size) offset) world

def pwrite (fd : ℤ) (data : Bytes) (offset : Int64) : ServerM (Except Errno ℕ) :=
  perform (.pwrite fd) fun world ↦
    onDescriptor fd
      (fun file ↦ world.fs.pwrite file (data.take (world.fault.limit data.length)) offset) world

/-- The new descriptor of an opened file. -/
def newDescriptor (file : OpenFile) : ServerM ℤ := fun world ↦
  let fd : ℤ := lowestFree (world.fds.map fun fd ↦ fd.1.toNat)
  (fd, { world with fds := (fd, file) :: world.fds }.log (.opened (.fd fd)))

def openFile (path : Path) (flags : OpenFlags) (mode : UInt32) : ServerM (Except Errno ℤ) := do
  match ← perform (.openFile path flags) fun world ↦ world.fs.openFile path flags mode with
  | .error error => return .error error
  | .ok file => return .ok (← newDescriptor file)

def close (fd : ℤ) : ServerM Unit := fun world ↦
  ((), { world with fds := world.fds.filter (·.1 ≠ fd) }.log (.closed (.fd fd)))

/-- The new stream of an opened directory. -/
def newStream (stream : DirStream) : ServerM ℕ := fun world ↦
  let address := lowestFree (0 :: world.streams.map Prod.fst)
  (address, { world with streams := (address, stream) :: world.streams }.log
    (.opened (.stream address)))

def opendir (path : Path) : ServerM (Except Errno ℕ) := do
  match ← perform (.opendir path) fun world ↦ world.fs.opendir path with
  | .error error => return .error error
  | .ok stream => return .ok (← newStream stream)

/-- `readdir`: the next name, or `none` at the end and on an error. -/
def readdir (address : ℕ) : ServerM (Option Name) := fun world ↦
  match world.fault, world.streams.lookup address with
  | .fail _, _ | _, none => (none, world.dropFault.log (.called (.readdir address) []))
  | _, some stream =>
    (stream.pending.head?,
      { world.dropFault with
        streams := (address, { stream with pending := stream.pending.tail }) ::
          world.streams.filter (·.1 ≠ address) }.log
        (.called (.readdir address) [stream.loc]))

def closedir (address : ℕ) : ServerM Unit := fun world ↦
  ((), { world with streams := world.streams.filter (·.1 ≠ address) }.log
    (.closed (.stream address)))

/-- `std::filesystem::weakly_canonical`, which a failing call below can stop, as one does
for a pathname over the limits of the kernel. -/
def weaklyCanonical (path : Path) : ServerM (Except Errno Path) := fun world ↦
  match world.fault with
  | .fail error => (.error error, world.dropFault)
  | _ => (world.fs.weaklyCanonical path, world.dropFault)

end LibSshpp.SftpServer
