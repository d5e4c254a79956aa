import LibSshpp.Exec.Output
import LibSshpp.Program.ExactTransfer

/-!
The six loops that move a whole buffer: `Channel::try_write_all` in both forms,
`File::try_write_all`, `File::try_read_exact`, `recv_exact` and `send_exact`. Each goes over a
range of the process's memory by calls whose results the other side decides.
-/

set_option autoImplicit false
set_option relaxedAutoImplicit false

namespace LibSshpp.Transfers

open Program Exec

/-! ### Memory and calls -/

/-- The process's memory with every range that a call was asked to move, the bytes that writing
calls passed on, and how many bytes reading calls have taken from their source. -/
structure Machine where
  memory : ℕ → UInt8
  requests : List Span := []
  sent : Bytes := []
  received : ℕ := 0

/-- How a call ends: what it returns, and what libssh says of the error if it failed. -/
structure Answer where
  returns : ℤ
  sshError : SshError := {}
  sftpStatus : ℤ := 4

/-- The other side: how each call ends when it is asked for so many bytes, and the bytes that
reading calls deliver. -/
structure Peer where
  answer : ℕ → ℕ → Answer
  source : ℕ → UInt8 := fun _ ↦ 0

/-- The bytes of a range. -/
def bytesOf (memory : ℕ → UInt8) (span : Span) : Bytes :=
  (List.range span.length).map fun i ↦ memory (span.start + i)

/-- The memory with the bytes from `position` on of a source in a range. -/
def fill (memory : ℕ → UInt8) (span : Span) (source : ℕ → UInt8) (position : ℕ) : ℕ → UInt8 :=
  fun address ↦
    if span.start ≤ address ∧ address < span.start + span.length then
      source (position + (address - span.start))
    else memory address

namespace Peer

/-- A call that passes on the front of a range, as much as it reports. -/
def transferOut (peer : Peer) (span : Span) : StateM Machine Answer := fun machine ↦
  let answer := peer.answer machine.requests.length span.length
  (answer, { machine with
    requests := machine.requests ++ [span]
    sent := machine.sent ++ bytesOf machine.memory ⟨span.start, answer.returns.toNat⟩ })

/-- A call that fills the front of a range, as much as it reports. -/
def transferIn (peer : Peer) (span : Span) : StateM Machine Answer := fun machine ↦
  let answer := peer.answer machine.requests.length span.length
  (answer, { machine with
    requests := machine.requests ++ [span]
    memory := fill machine.memory ⟨span.start, answer.returns.toNat⟩ peer.source machine.received
    received := machine.received + answer.returns.toNat })

end Peer

/-! ### One piece -/

/-- A call through a handle of libssh: none without a native handle, and an error when it
returns a negative number. -/
def throughHandle (native : Bool) (operation : String) (call : StateM Machine Answer)
    (failure : Answer → ErrorInfo) : StateM Machine (Result ℕ) :=
  if native = false then pure (.error { code := .ssh .invalidHandle, operation })
  else do
    let answer ← call
    if answer.returns < 0 then pure (.error (failure answer))
    else pure (.ok answer.returns.toNat)

/-- `Channel::try_write_some`, which passes the length as a 32-bit number. -/
def channelTryWriteSome (native : Bool) (peer : Peer) (data : Span) : StateM Machine (Result ℕ) :=
  throughHandle native "Channel::try_write_some"
    (peer.transferOut ⟨data.start, data.length % 2 ^ 32⟩)
    fun answer ↦ makeErrorInfo answer.sshError "ssh_channel_write" .channelClosed

/-- `Channel::try_write_some` for a given stream. -/
def channelTryWriteSomeTo (native : Bool) (peer : Peer) (stream : Stream) (data : Span) :
    StateM Machine (Result ℕ) :=
  match stream with
  | .stdout => channelTryWriteSome native peer data
  | .stderr =>
    throughHandle native "Channel::try_write_some"
      (peer.transferOut ⟨data.start, data.length % 2 ^ 32⟩)
      fun answer ↦ makeErrorInfo answer.sshError "ssh_channel_write_stderr" .channelClosed

/-- `File::try_read`. -/
def fileTryRead (native : Bool) (peer : Peer) (buf : Span) : StateM Machine (Result ℕ) :=
  throughHandle native "File::try_read" (peer.transferIn buf)
    fun answer ↦ makeSftpErrorInfo answer.sftpStatus answer.sshError "sftp_read"

/-- `File::try_write`. -/
def fileTryWrite (native : Bool) (peer : Peer) (data : Span) : StateM Machine (Result ℕ) :=
  throughHandle native "File::try_write" (peer.transferOut data)
    fun answer ↦ makeSftpErrorInfo answer.sftpStatus answer.sshError "sftp_write"

/-- What `recv_exact` and `send_exact` make of a result: nothing moved and an error are the
same to them. -/
def positiveOnly (call : StateM Machine Answer) : StateM Machine (Except Unit ℕ) := do
  let answer ← call
  if answer.returns ≤ 0 then pure (.error ()) else pure (.ok answer.returns.toNat)

/-! ### The whole range -/

/-- The error of a write that takes nothing. -/
def shortWrite (operation : String) : ErrorInfo where
  code := .ssh .channelClosed
  message := "short write"
  operation := operation

/-- `Channel::try_write_all`. -/
def channelTryWriteAll (native : Bool) (peer : Peer) (data : Span) :
    StateM Machine (Result Unit) :=
  transferLoop (shortWrite "Channel::try_write_all") (channelTryWriteSome native peer) data 0

/-- `Channel::try_write_all` for a given stream. -/
def channelTryWriteAllTo (native : Bool) (peer : Peer) (stream : Stream) (data : Span) :
    StateM Machine (Result Unit) :=
  transferLoop (shortWrite "Channel::try_write_all") (channelTryWriteSomeTo native peer stream)
    data 0

/-- `File::try_write_all`. -/
def fileTryWriteAll (native : Bool) (peer : Peer) (data : Span) : StateM Machine (Result Unit) :=
  transferLoop (shortWrite "File::try_write_all") (fileTryWrite native peer) data 0

/-- `File::try_read_exact`. -/
def fileTryReadExact (native : Bool) (peer : Peer) (buf : Span) : StateM Machine (Result Unit) :=
  transferLoop
    { code := .ssh .channelEof, message := "unexpected EOF", operation := "File::try_read_exact" }
    (fileTryRead native peer) buf 0

/-- `recv_exact`. -/
def recvExact (peer : Peer) (buf : Span) : StateM Machine Bool := do
  let received ← transferLoop () (fun span ↦ positiveOnly (peer.transferIn span)) buf 0
  pure received.isOk

/-- `send_exact`. -/
def sendExact (peer : Peer) (buf : Span) : StateM Machine Bool := do
  let sent ← transferLoop () (fun span ↦ positiveOnly (peer.transferOut span)) buf 0
  pure sent.isOk

/-! ### What is moved -/

/-- The bytes of the range went out, in order, and nothing else has changed. -/
def Sent (before : Machine) (span : Span) (after : Machine) : Prop :=
  after.sent = before.sent ++ bytesOf before.memory span ∧ after.memory = before.memory ∧
    after.received = before.received

/-- The range holds the next bytes of the source, and nothing else has changed. -/
def Received (peer : Peer) (before : Machine) (span : Span) (after : Machine) : Prop :=
  after.memory = fill before.memory span peer.source before.received ∧
    after.received = before.received + span.length ∧ after.sent = before.sent

theorem bytesOf_add (memory : ℕ → UInt8) (start count more : ℕ) :
    bytesOf memory ⟨start, count + more⟩ =
      bytesOf memory ⟨start, count⟩ ++ bytesOf memory ⟨start + count, more⟩ := by
  simp only [bytesOf, List.range_add, List.map_append, List.map_map, List.append_cancel_left_eq]
  exact List.map_congr_left fun i _ ↦ congrArg memory (Nat.add_assoc _ _ _).symm

theorem fill_fill (memory source : ℕ → UInt8) (start count more position : ℕ) :
    fill (fill memory ⟨start, count⟩ source position) ⟨start + count, more⟩ source
        (position + count) =
      fill memory ⟨start, count + more⟩ source position := by
  funext address
  simp only [fill]
  by_cases hback : start + count ≤ address ∧ address < start + count + more
  · rw [if_pos hback, if_pos (by omega)]
    congr 1
    omega
  · rw [if_neg hback]
    by_cases hfront : start ≤ address ∧ address < start + count
    · rw [if_pos hfront, if_pos (by omega)]
    · rw [if_neg hfront, if_neg (by omega)]

theorem bytesOf_zero (memory : ℕ → UInt8) (start : ℕ) : bytesOf memory ⟨start, 0⟩ = [] := rfl

theorem fill_zero (memory source : ℕ → UInt8) (start position : ℕ) :
    fill memory ⟨start, 0⟩ source position = memory := by
  funext address
  exact if_neg (by dsimp only; omega)

/-- Outside the range the memory is what it was. -/
theorem fill_of_outside {memory source : ℕ → UInt8} {span : Span} {position address : ℕ}
    (h : ¬ (span.start ≤ address ∧ address < span.start + span.length)) :
    fill memory span source position address = memory address := if_neg h

/-- The range holds the source's bytes in order. -/
theorem bytesOf_fill (memory source : ℕ → UInt8) (span : Span) (position : ℕ) :
    bytesOf (fill memory span source position) span = bytesOf source ⟨position, span.length⟩ := by
  refine List.map_congr_left fun i hi ↦ ?_
  have hlt := List.mem_range.mp hi
  change fill memory span source position (span.start + i) = source (position + i)
  rw [fill, if_pos (by omega), Nat.add_sub_cancel_left]

end LibSshpp.Transfers
