import LibSshpp.Foundation.Bytes
import LibSshpp.Foundation.Error
import LibSshpp.Program.Interleave
import LibSshpp.Program.StateTriple
import Mathlib.Logic.Function.Basic

/-!
`Exec::try_run` and the output it collects. The loop asks each stream of the
channel how much has arrived, reads a piece of it, and ends when libssh reports the
end of the channel in a round in which neither stream had anything. Packets and
the end of file arrive before any of these calls, as the network likes.
-/

set_option autoImplicit false
set_option relaxedAutoImplicit false

namespace LibSshpp.Exec

open Program

inductive Stream
  | stdout | stderr
  deriving DecidableEq, Repr

/-! ### The channel -/

/-- What the server sends on the channel. -/
inductive Packet
  | data (stream : Stream) (bytes : Bytes)
  | eof
  deriving DecidableEq, Repr

/-- libssh's side of the channel: what has not arrived yet, what has arrived and was
not read, and whether the end of file has been received. -/
structure Channel where
  incoming : List Packet
  buffer : Stream → Bytes := fun _ ↦ []
  remoteEof : Bool := false

namespace Channel

def receive (channel : Channel) : Channel :=
  match channel.incoming with
  | [] => channel
  | .data stream bytes :: incoming =>
    { channel with
      incoming, buffer := Function.update channel.buffer stream (channel.buffer stream ++ bytes) }
  | .eof :: incoming => { channel with incoming, remoteEof := true }

/-- The next so many packets arrive. -/
def receiveMany (channel : Channel) : ℕ → Channel
  | 0 => channel
  | count + 1 => channel.receive.receiveMany count

/-- So many bytes of a stream are taken from its buffer. -/
def consume (channel : Channel) (stream : Stream) (count : ℕ) : Channel :=
  { channel with
    buffer := Function.update channel.buffer stream ((channel.buffer stream).drop count) }

/-- `ssh_channel_is_eof` may say so only when the end of file was received and
nothing is left to read; `reported` is its say in that case. -/
def isEof (channel : Channel) (reported : Bool) : Bool :=
  reported && channel.remoteEof && (channel.buffer .stdout).isEmpty &&
    (channel.buffer .stderr).isEmpty

end Channel

/-- What happens around the two calls for one stream: the packets that arrive before
each, how `ssh_channel_poll_timeout` fails if it does, and how many bytes
`ssh_channel_read_timeout` returns at most, or how it fails. -/
structure Turn where
  beforePoll : ℕ := 0
  pollError : Option SshError := none
  beforeRead : ℕ := 0
  read : Except SshError ℕ := .ok 16384

/-- One round of the loop. What arrives while it waits arrives before the next round,
and the clock is only asked whether the deadline has passed. -/
structure Round where
  stdout : Turn := {}
  stderr : Turn := {}
  beforeEof : ℕ := 0
  eofReported : Bool := true
  pastDeadline : Bool := false

/-! ### The command -/

/-- The options of `Exec` that decide what `try_run` does with the channel. -/
structure Options where
  pty : Bool := false
  stdinData : Option Bytes := none
  timeout : Option ℕ := none
  maxOutput : ℕ := 16 * 2 ^ 20
  mergeStderr : Bool := false
  sink : Bool := false
  deriving DecidableEq, Repr

structure ExecResult where
  exitCode : ℤ := -1
  exitSignal : Option Bytes := none
  stdoutText : Bytes := []
  stderrText : Bytes := []
  stdoutTruncated : Bool := false
  stderrTruncated : Bool := false
  deriving DecidableEq, Repr

namespace ExecResult

def text (result : ExecResult) : Stream → Bytes
  | .stdout => result.stdoutText
  | .stderr => result.stderrText

def truncated (result : ExecResult) : Stream → Bool
  | .stdout => result.stdoutTruncated
  | .stderr => result.stderrTruncated

def append (result : ExecResult) (data : Bytes) : Stream → ExecResult
  | .stdout => { result with stdoutText := result.stdoutText ++ data }
  | .stderr => { result with stderrText := result.stderrText ++ data }

def truncate (result : ExecResult) : Stream → ExecResult
  | .stdout => { result with stdoutTruncated := true }
  | .stderr => { result with stderrTruncated := true }

end ExecResult

/-- Where the data of a stream goes. -/
def destination (exec : Options) : Stream → Stream
  | .stdout => .stdout
  | .stderr => if exec.mergeStderr then .stdout else .stderr

/-- The loop's variables, with what was given to the sink. -/
structure Running where
  channel : Channel
  result : ExecResult := {}
  sunk : List (Stream × Bytes) := []

/-- What the loop does with a piece of a stream. -/
def deliver (exec : Options) (stream : Stream) (data : Bytes) (state : Running) : Running :=
  if exec.sink then { state with sunk := state.sunk ++ [(stream, data)] }
  else if (state.result.text (destination exec stream)).length < exec.maxOutput then
    { state with result := state.result.append data (destination exec stream) }
  else { state with result := state.result.truncate (destination exec stream) }

def chunkSize : ℕ := 16384

/-- `Channel::try_bytes_available`. -/
def tryBytesAvailable (stream : Stream) (turn : Turn) : StateM Running (Result ℕ) := fun state ↦
  let channel := state.channel.receiveMany turn.beforePoll
  (match turn.pollError with
    | some last => .error (makeErrorInfo last "ssh_channel_poll_timeout" .channelClosed)
    | none => .ok (channel.buffer stream).length, { state with channel })

/-- `Channel::try_read_some`. -/
def tryReadSome (stream : Stream) (turn : Turn) : StateM Running (Result Bytes) := fun state ↦
  let channel := state.channel.receiveMany turn.beforeRead
  match turn.read with
  | .error last =>
    (.error (makeErrorInfo last "ssh_channel_read_timeout" .channelClosed), { state with channel })
  | .ok count =>
    let data := (channel.buffer stream).take (min count chunkSize)
    (.ok data, { state with channel := channel.consume stream (min count chunkSize) })

/-- The part of a round for one stream: what the poll said, unless a read failed. -/
def drain (exec : Options) (stream : Stream) (turn : Turn) :
    StateM Running (Result (Result ℕ)) := do
  let avail ← tryBytesAvailable stream turn
  match avail with
  | .ok (_ + 1) =>
    match ← tryReadSome stream turn with
    | .error info => pure (.error info)
    | .ok data =>
      if data ≠ [] then modify (deliver exec stream data)
      pure (.ok avail)
  | _ => pure (.ok avail)

/-- Nothing was there to read, as far as the poll knows. -/
def nothingThere : Result ℕ → Bool
  | .error _ => true
  | .ok available => available = 0

/-- The loop of `try_run`: its outcome, if it ends within these rounds. -/
def loop (exec : Options) : List Round → StateM Running (Option (Result Unit))
  | [] => pure none
  | round :: rounds => do
    match ← drain exec .stdout round.stdout with
    | .error info => pure (some (.error info))
    | .ok availOut =>
      match ← drain exec .stderr round.stderr with
      | .error info => pure (some (.error info))
      | .ok availErr =>
        modify fun state ↦ { state with channel := state.channel.receiveMany round.beforeEof }
        if (← get).channel.isEof round.eofReported && nothingThere availOut &&
            nothingThere availErr then
          pure (some (.ok ()))
        else if exec.timeout.isSome && round.pastDeadline then
          pure (some (.error { code := .ssh .timedOut, operation := "Exec::try_run" }))
        else loop exec rounds

structure ExitState where
  status : Option ℤ := none
  signal : Option Bytes := none
  deriving DecidableEq, Repr

/-- How the calls around the loop end: those whose outcome `try_run` looks at. -/
structure Outcomes where
  openChannel : Result Unit := .ok ()
  requestPty : Result Unit := .ok ()
  requestExec : Result Unit := .ok ()
  writeStdin : Result Unit := .ok ()
  waitExit : Result ExitState := .ok {}

/-- What comes before the loop; `try_request_env` and `try_send_eof` may fail. -/
def start (exec : Options) (outcomes : Outcomes) : Result Unit := do
  outcomes.openChannel
  if exec.pty then outcomes.requestPty
  outcomes.requestExec
  if exec.stdinData.isSome then outcomes.writeStdin

/-- `Exec::try_run` on a channel on which the server sends these packets; nothing yet
if the loop does not end within the rounds. -/
def tryRun (exec : Options) (outcomes : Outcomes) (packets : List Packet)
    (rounds : List Round) : Option (Result ExecResult) :=
  match start exec outcomes with
  | .error info => some (.error info)
  | .ok () =>
    match loop exec rounds { channel := { incoming := packets } } with
    | (none, _) => none
    | (some (.error info), _) => some (.error info)
    | (some (.ok ()), state) =>
      match outcomes.waitExit with
      | .error _ => some (.ok state.result)
      | .ok exit =>
        some (.ok { state.result with
          exitCode := exit.status.getD (-1), exitSignal := exit.signal })

/-! ### What arrives -/

/-- The packets of a server that sends these pieces of its streams and then the end of
file. -/
def packetsOf (sent : List (Stream × Bytes)) : List Packet :=
  sent.map (fun piece ↦ .data piece.1 piece.2) ++ [.eof]

/-- The whole of one stream. -/
def sentOn (stream : Stream) (sent : List (Stream × Bytes)) : Bytes :=
  (sent.filter fun piece ↦ piece.1 = stream).flatMap Prod.snd

theorem sentOn_cons (stream : Stream) (piece : Stream × Bytes) (sent : List (Stream × Bytes)) :
    sentOn stream (piece :: sent) =
      (if piece.1 = stream then piece.2 else []) ++ sentOn stream sent := by
  unfold sentOn
  by_cases h : piece.1 = stream <;> simp [h]

namespace Channel

/-- The channel has still to deliver `unread`, of which some may not have arrived. -/
def Holds (channel : Channel) (unread : Stream → Bytes) : Prop :=
  (channel.remoteEof = true ∧ channel.incoming = [] ∧ channel.buffer = unread) ∨
    (channel.remoteEof = false ∧ ∃ pending, channel.incoming = packetsOf pending ∧
      ∀ stream, channel.buffer stream ++ sentOn stream pending = unread stream)

theorem holds_receive {channel : Channel} {unread : Stream → Bytes} (h : channel.Holds unread) :
    channel.receive.Holds unread := by
  rcases h with ⟨heof, hincoming, hbuffer⟩ | ⟨heof, pending, hincoming, hunread⟩
  · rw [receive, hincoming]
    exact .inl ⟨heof, hincoming, hbuffer⟩
  · cases pending with
    | nil =>
      have hend : channel.incoming = [.eof] := hincoming
      rw [receive, hend]
      refine .inl ⟨rfl, rfl, funext fun stream ↦ ?_⟩
      have hstream := hunread stream
      rw [show sentOn stream [] = [] from rfl, List.append_nil] at hstream
      exact hstream
    | cons piece pending =>
      have hnext : channel.incoming = .data piece.1 piece.2 :: packetsOf pending := hincoming
      rw [receive, hnext]
      refine .inr ⟨heof, pending, rfl, fun stream ↦ ?_⟩
      have hstream := hunread stream
      rw [sentOn_cons] at hstream
      change Function.update channel.buffer piece.1 (channel.buffer piece.1 ++ piece.2) stream ++
        sentOn stream pending = unread stream
      by_cases hsame : piece.1 = stream
      · subst hsame
        rw [if_pos rfl] at hstream
        rw [Function.update_self, List.append_assoc]
        exact hstream
      · rw [if_neg hsame] at hstream
        rw [Function.update_of_ne (Ne.symm hsame)]
        exact hstream

theorem holds_receiveMany {channel : Channel} {unread : Stream → Bytes} (h : channel.Holds unread)
    (count : ℕ) : (channel.receiveMany count).Holds unread := by
  induction count generalizing channel with
  | zero => exact h
  | succ count ih => exact ih (holds_receive h)

/-- Taking from the front of a buffer takes from the front of what is unread. -/
theorem holds_take {channel : Channel} {unread : Stream → Bytes} (h : channel.Holds unread)
    (stream : Stream) (count : ℕ) :
    ∃ rest, (channel.buffer stream).take count ++ rest = unread stream ∧
      (channel.consume stream count).Holds (Function.update unread stream rest) := by
  rcases h with ⟨heof, hincoming, rfl⟩ | ⟨heof, pending, hincoming, hunread⟩
  · refine ⟨(channel.buffer stream).drop count, List.take_append_drop _ _, ?_⟩
    exact .inl ⟨heof, hincoming, rfl⟩
  · refine ⟨(channel.buffer stream).drop count ++ sentOn stream pending, ?_, ?_⟩
    · rw [← List.append_assoc, List.take_append_drop]
      exact hunread stream
    · refine .inr ⟨heof, pending, hincoming, fun other ↦ ?_⟩
      change Function.update channel.buffer stream ((channel.buffer stream).drop count) other ++
        sentOn other pending = _
      by_cases hsame : other = stream
      · subst hsame
        rw [Function.update_self, Function.update_self]
      · rw [Function.update_of_ne hsame, Function.update_of_ne hsame]
        exact hunread other

/-- At the reported end of the channel nothing is unread. -/
theorem unread_eq_nil_of_isEof {channel : Channel} {unread : Stream → Bytes} {reported : Bool}
    (h : channel.Holds unread) (heof : channel.isEof reported = true) (stream : Stream) :
    unread stream = [] := by
  simp only [isEof, Bool.and_eq_true, List.isEmpty_iff] at heof
  obtain ⟨⟨⟨-, hremote⟩, hstdout⟩, hstderr⟩ := heof
  rcases h with ⟨-, -, rfl⟩ | ⟨hopen, -⟩
  · cases stream with
    | stdout => exact hstdout
    | stderr => exact hstderr
  · rw [hremote] at hopen
    exact nomatch hopen

end Channel

/-! ### What is kept -/

/-- The result holds the kept bytes of the streams that go to each destination, in
their order; a destination is marked exactly when bytes for it were dropped; and
nothing is dropped before the destination is full. -/
structure Collected (exec : Options) (kept dropped : Stream → Bytes) (result : ExecResult) :
    Prop where
  text : ∀ target, Interleave (if destination exec .stdout = target then kept .stdout else [])
    (if destination exec .stderr = target then kept .stderr else []) (result.text target)
  flag : ∀ target, result.truncated target = true ↔
    ∃ stream, destination exec stream = target ∧ dropped stream ≠ []
  full : ∀ stream, dropped stream ≠ [] →
    exec.maxOutput ≤ (result.text (destination exec stream)).length

namespace ExecResult

theorem text_append (result : ExecResult) (data : Bytes) (target other : Stream) :
    (result.append data target).text other =
      result.text other ++ if target = other then data else [] := by
  cases target <;> cases other <;> simp [append, text]

theorem truncated_append (result : ExecResult) (data : Bytes) (target other : Stream) :
    (result.append data target).truncated other = result.truncated other := by
  cases target <;> rfl

theorem text_truncate (result : ExecResult) (target other : Stream) :
    (result.truncate target).text other = result.text other := by
  cases target <;> rfl

theorem truncated_truncate (result : ExecResult) (target other : Stream) :
    (result.truncate target).truncated other = true ↔
      target = other ∨ result.truncated other = true := by
  cases target <;> cases other <;> simp [truncate, truncated]

end ExecResult

/-- One more piece of a stream in a family. -/
def extend (family : Stream → Bytes) (stream : Stream) (data : Bytes) : Stream → Bytes :=
  Function.update family stream (family stream ++ data)

theorem extend_apply (family : Stream → Bytes) (stream : Stream) (data : Bytes) (other : Stream) :
    extend family stream data other = family other ++ if other = stream then data else [] := by
  by_cases hsame : other = stream
  · subst hsame
    rw [extend, Function.update_self, if_pos rfl]
  · rw [extend, Function.update_of_ne hsame, if_neg hsame, List.append_nil]

/-- A piece that still finds room is kept. -/
theorem Collected.append {exec : Options} {kept dropped : Stream → Bytes} {result : ExecResult}
    (h : Collected exec kept dropped result) (stream : Stream) (data : Bytes) :
    Collected exec (extend kept stream data) dropped
      (result.append data (destination exec stream)) where
  text := by
    intro target
    rw [ExecResult.text_append]
    by_cases htarget : destination exec stream = target
    · rw [if_pos htarget]
      cases stream with
      | stdout =>
        have hmore := (h.text target).append_left data
        simpa [extend_apply, htarget] using hmore
      | stderr =>
        have hmore := (h.text target).append_right data
        simpa [extend_apply, htarget] using hmore
    · rw [if_neg htarget, List.append_nil]
      cases stream with
      | stdout => simpa [extend_apply, htarget] using h.text target
      | stderr => simpa [extend_apply, htarget] using h.text target
  flag := by
    intro target
    rw [ExecResult.truncated_append]
    exact h.flag target
  full := by
    intro other hdropped
    rw [ExecResult.text_append, List.length_append]
    exact (h.full other hdropped).trans (Nat.le_add_right _ _)

/-- A piece for which there is no room is dropped, and its destination marked. -/
theorem Collected.drop {exec : Options} {kept dropped : Stream → Bytes} {result : ExecResult}
    (h : Collected exec kept dropped result) (stream : Stream) {data : Bytes} (hdata : data ≠ [])
    (hfull : exec.maxOutput ≤ (result.text (destination exec stream)).length) :
    Collected exec kept (extend dropped stream data)
      (result.truncate (destination exec stream)) where
  text := by
    intro target
    rw [ExecResult.text_truncate]
    exact h.text target
  flag := by
    intro target
    rw [ExecResult.truncated_truncate, h.flag]
    constructor
    · rintro (rfl | ⟨other, rfl, hdropped⟩)
      · refine ⟨stream, rfl, ?_⟩
        rw [extend_apply, if_pos rfl]
        exact List.append_ne_nil_of_right_ne_nil _ hdata
      · refine ⟨other, rfl, ?_⟩
        rw [extend_apply]
        exact List.append_ne_nil_of_left_ne_nil hdropped _
    · rintro ⟨other, rfl, hdropped⟩
      by_cases hsame : other = stream
      · exact .inl (by rw [hsame])
      · rw [extend_apply, if_neg hsame, List.append_nil] at hdropped
        exact .inr ⟨other, rfl, hdropped⟩
  full := by
    intro other hdropped
    rw [ExecResult.text_truncate]
    by_cases hsame : other = stream
    · rw [hsame]
      exact hfull
    · rw [extend_apply, if_neg hsame, List.append_nil] at hdropped
      exact h.full other hdropped

/-! ### The loop -/

/-- Every byte of a stream has been kept, dropped, or not been read. -/
def Accounted (exec : Options) (whole : Stream → Bytes) (state : Running) : Prop :=
  ∃ kept dropped unread, Collected exec kept dropped state.result ∧ state.channel.Holds unread ∧
    ∀ stream, kept stream ++ dropped stream ++ unread stream = whole stream

section Loop

variable {exec : Options} {whole : Stream → Bytes}

theorem Accounted.receiveMany {state : Running} (h : Accounted exec whole state) (count : ℕ) :
    Accounted exec whole { state with channel := state.channel.receiveMany count } := by
  obtain ⟨kept, dropped, unread, hcollected, hholds, hwhole⟩ := h
  exact ⟨kept, dropped, unread, hcollected, Channel.holds_receiveMany hholds count, hwhole⟩

theorem accounted_tryBytesAvailable (stream : Stream) (turn : Turn) :
    Keeps (Accounted exec whole) (tryBytesAvailable stream turn) :=
  fun _ h ↦ h.receiveMany turn.beforePoll

/-- A piece that was read has left the channel and is still to be delivered. -/
theorem tryReadSome_spec (stream : Stream) (turn : Turn) :
    Triple (Accounted exec whole) (tryReadSome stream turn) fun result state ↦
      match result with
      | .error _ => Accounted exec whole state
      | .ok data => ∃ kept dropped unread, Collected exec kept dropped state.result ∧
        state.channel.Holds unread ∧ ∀ other,
          kept other ++ dropped other ++ ((if other = stream then data else []) ++ unread other) =
            whole other := by
  intro state h
  have hreceived := h.receiveMany turn.beforeRead
  unfold tryReadSome
  cases hread : turn.read with
  | error last => exact hreceived
  | ok count =>
    obtain ⟨kept, dropped, unread, hcollected, hholds, hwhole⟩ := hreceived
    obtain ⟨rest, hrest, hconsumed⟩ := Channel.holds_take hholds stream (min count chunkSize)
    refine ⟨kept, dropped, _, hcollected, hconsumed, fun other ↦ ?_⟩
    by_cases hsame : other = stream
    · subst hsame
      rw [if_pos rfl, Function.update_self, hrest]
      exact hwhole other
    · rw [if_neg hsame, Function.update_of_ne hsame, List.nil_append]
      exact hwhole other

/-- A piece that was read is kept or dropped. -/
theorem accounted_deliver (hsink : exec.sink = false) {kept dropped unread : Stream → Bytes}
    {state : Running} {stream : Stream} {data : Bytes} (hdata : data ≠ [])
    (hcollected : Collected exec kept dropped state.result) (hholds : state.channel.Holds unread)
    (hwhole : ∀ other, kept other ++ dropped other ++
      ((if other = stream then data else []) ++ unread other) = whole other) :
    Accounted exec whole (deliver exec stream data state) := by
  rw [deliver, if_neg (by rw [hsink]; exact Bool.false_ne_true)]
  by_cases hroom : (state.result.text (destination exec stream)).length < exec.maxOutput
  · rw [if_pos hroom]
    refine ⟨extend kept stream data, dropped, unread, hcollected.append stream data, hholds, ?_⟩
    intro other
    rw [← hwhole other, extend_apply]
    by_cases hsame : other = stream
    · -- there was room, so nothing of this stream has been dropped
      have hnone : dropped stream = [] := by
        by_contra hdropped
        exact absurd (hcollected.full stream hdropped) (Nat.not_le.mpr hroom)
      rw [hsame, hnone]
      simp
    · simp [hsame]
  · rw [if_neg hroom]
    refine ⟨kept, extend dropped stream data, unread,
      hcollected.drop stream hdata (Nat.le_of_not_lt hroom), hholds, fun other ↦ ?_⟩
    rw [← hwhole other, extend_apply]
    simp only [List.append_assoc]

/-- A stream that cannot be polled is not read. -/
theorem drain_of_pollError {turn : Turn} {last : SshError} (hpoll : turn.pollError = some last)
    (stream : Stream) (state : Running) :
    drain exec stream turn state =
      (.ok (.error (makeErrorInfo last "ssh_channel_poll_timeout" .channelClosed)),
        { state with channel := state.channel.receiveMany turn.beforePoll }) := by
  rw [drain, bind_of_eq (by rw [tryBytesAvailable, hpoll])]
  rfl

theorem accounted_drain (hsink : exec.sink = false) (stream : Stream) (turn : Turn) :
    Keeps (Accounted exec whole) (drain exec stream turn) := by
  refine Triple.bind (accounted_tryBytesAvailable stream turn) fun avail ↦ ?_
  match avail with
  | .error info => exact Keeps.pure _
  | .ok 0 => exact Keeps.pure _
  | .ok (available + 1) =>
    refine Triple.bind (tryReadSome_spec stream turn) fun result ↦ ?_
    cases result with
    | error info => exact Keeps.pure _
    | ok data =>
      rintro state ⟨kept, dropped, unread, hcollected, hholds, hwhole⟩
      by_cases hdata : data = []
      · subst hdata
        refine ⟨kept, dropped, unread, hcollected, hholds, fun other ↦ ?_⟩
        have hother := hwhole other
        rw [ite_self, List.nil_append] at hother
        exact hother
      · simp only [ne_eq, hdata, not_false_eq_true, if_true]
        exact accounted_deliver hsink hdata hcollected hholds hwhole

/-- The loop accounts for every byte, and ends well only at the reported end of the
channel. -/
theorem loop_spec (hsink : exec.sink = false) (rounds : List Round) :
    Triple (Accounted exec whole) (loop exec rounds) fun outcome state ↦
      Accounted exec whole state ∧
        (outcome = some (.ok ()) → ∃ reported, state.channel.isEof reported = true) := by
  induction rounds with
  | nil => exact fun state h ↦ ⟨h, fun hok ↦ nomatch hok⟩
  | cons round rounds ih =>
    rw [loop]
    refine Triple.bindExcept (accounted_drain hsink .stdout round.stdout)
      (fun info state h ↦ ⟨h, fun hok ↦ nomatch hok⟩) fun availOut ↦ ?_
    refine Triple.bindExcept (accounted_drain hsink .stderr round.stderr)
      (fun info state h ↦ ⟨h, fun hok ↦ nomatch hok⟩) fun availErr ↦ ?_
    refine Triple.bind (show Keeps (Accounted exec whole) (modify _) from
      fun state h ↦ h.receiveMany round.beforeEof) fun _ ↦ ?_
    intro state h
    rw [bind_of_eq (show (get : StateM Running Running) state = (state, state) from rfl)]
    split_ifs with heof hlate
    · rw [Bool.and_eq_true, Bool.and_eq_true] at heof
      exact ⟨h, fun _ ↦ ⟨round.eofReported, heof.1.1⟩⟩
    · exact ⟨h, fun hok ↦ nomatch hok⟩
    · exact ih state h

end Loop

/-- The text is a prefix of the stream, all of it unless it is marked, and marked
exactly when something is missing. -/
structure Captures (text stream : Bytes) (truncated : Bool) : Prop where
  initial : text <+: stream
  complete : truncated = false → text = stream
  marked : truncated = true ↔ text.length < stream.length

/-- The text merges a prefix of each stream in order, both complete unless it is
marked, and is marked exactly when something is missing. -/
structure CapturesBoth (text stdout stderr : Bytes) (truncated : Bool) : Prop where
  merged : ∃ out err, out <+: stdout ∧ err <+: stderr ∧ Interleave out err text ∧
    (truncated = false → out = stdout ∧ err = stderr)
  marked : truncated = true ↔ text.length < stdout.length + stderr.length

/-- What the options ask for of the result. -/
def OutputExact (exec : Options) (stdout stderr : Bytes) (result : ExecResult) : Prop :=
  if exec.mergeStderr then
    CapturesBoth result.stdoutText stdout stderr result.stdoutTruncated ∧
      result.stderrText = [] ∧ result.stderrTruncated = false
  else
    Captures result.stdoutText stdout result.stdoutTruncated ∧
      Captures result.stderrText stderr result.stderrTruncated

theorem start_accounted (exec : Options) (sent : List (Stream × Bytes)) :
    Accounted exec (fun stream ↦ sentOn stream sent)
      { channel := { incoming := packetsOf sent } } := by
  refine ⟨fun _ ↦ [], fun _ ↦ [], fun stream ↦ sentOn stream sent, ⟨?_, ?_, ?_⟩,
    .inr ⟨rfl, sent, rfl, fun _ ↦ rfl⟩, fun _ ↦ rfl⟩
  · intro target
    rw [ite_self, ite_self]
    cases target <;> exact .nil
  · intro target
    cases target <;> simp [ExecResult.truncated]
  · exact fun stream hdropped ↦ absurd rfl hdropped

theorem captures_of_append {kept dropped stream : Bytes} {truncated : Bool}
    (hwhole : kept ++ dropped = stream) (hflag : truncated = true ↔ dropped ≠ []) :
    Captures kept stream truncated := by
  subst hwhole
  refine ⟨List.prefix_append _ _, fun hfalse ↦ ?_, ?_⟩
  · have hnone : dropped = [] := by
      by_contra hdropped
      rw [hflag.mpr hdropped] at hfalse
      exact nomatch hfalse
    rw [hnone, List.append_nil]
  · rw [hflag, List.length_append, ← List.length_pos_iff]
    omega

theorem capturesBoth_of_append {out err lostOut lostErr stdout stderr text : Bytes}
    {truncated : Bool} (hout : out ++ lostOut = stdout) (herr : err ++ lostErr = stderr)
    (htext : Interleave out err text) (hflag : truncated = true ↔ lostOut ≠ [] ∨ lostErr ≠ []) :
    CapturesBoth text stdout stderr truncated := by
  subst hout herr
  refine ⟨⟨out, err, List.prefix_append _ _, List.prefix_append _ _, htext, fun hfalse ↦ ?_⟩, ?_⟩
  · have hnone : ¬ (lostOut ≠ [] ∨ lostErr ≠ []) := by
      intro hlost
      rw [hflag.mpr hlost] at hfalse
      exact nomatch hfalse
    rw [not_or, not_ne_iff, not_ne_iff] at hnone
    rw [hnone.1, hnone.2, List.append_nil, List.append_nil]
    exact ⟨rfl, rfl⟩
  · rw [hflag, htext.length_eq, List.length_append, List.length_append, ← List.length_pos_iff,
      ← List.length_pos_iff]
    omega

theorem Collected.outputExact {exec : Options} {kept dropped whole : Stream → Bytes}
    {result : ExecResult} (h : Collected exec kept dropped result)
    (hwhole : ∀ stream, kept stream ++ dropped stream = whole stream) :
    OutputExact exec (whole .stdout) (whole .stderr) result := by
  have htextOut := h.text .stdout
  have htextErr := h.text .stderr
  have hflagOut := h.flag .stdout
  have hflagErr := h.flag .stderr
  have hout : destination exec .stdout = .stdout := rfl
  rw [OutputExact]
  split_ifs with hmerge
  · have herr : destination exec .stderr = .stdout := by rw [destination, if_pos hmerge]
    simp only [hout, herr, if_true, reduceCtorEq, if_false] at htextOut htextErr
    refine ⟨capturesBoth_of_append (hwhole .stdout) (hwhole .stderr) htextOut ?_,
      htextErr.eq_left, ?_⟩
    · refine hflagOut.trans ⟨?_, ?_⟩
      · rintro ⟨stream, -, hdropped⟩
        cases stream with
        | stdout => exact .inl hdropped
        | stderr => exact .inr hdropped
      · rintro (hdropped | hdropped)
        · exact ⟨.stdout, rfl, hdropped⟩
        · exact ⟨.stderr, herr, hdropped⟩
    · rw [← Bool.not_eq_true]
      refine fun hmarked ↦ ?_
      obtain ⟨stream, htarget, -⟩ := hflagErr.mp hmarked
      cases stream with
      | stdout => exact nomatch htarget
      | stderr => exact nomatch herr.symm.trans htarget
  · have herr : destination exec .stderr = .stderr := by rw [destination, if_neg hmerge]
    simp only [hout, herr, if_true, reduceCtorEq, if_false] at htextOut htextErr
    have hstdout := captures_of_append (hwhole .stdout) (hflagOut.trans ⟨?_, ?_⟩)
    have hstderr := captures_of_append (hwhole .stderr) (hflagErr.trans ⟨?_, ?_⟩)
    · rw [← htextOut.eq_left] at hstdout
      rw [← htextErr.eq_right] at hstderr
      exact ⟨hstdout, hstderr⟩
    · rintro ⟨stream, htarget, hdropped⟩
      cases stream with
      | stdout => exact nomatch htarget
      | stderr => exact hdropped
    · exact fun hdropped ↦ ⟨.stderr, herr, hdropped⟩
    · rintro ⟨stream, htarget, hdropped⟩
      cases stream with
      | stdout => exact hdropped
      | stderr => exact nomatch herr.symm.trans htarget
    · exact fun hdropped ↦ ⟨.stdout, rfl, hdropped⟩

/-- A run that returns a result has ended its loop well. -/
theorem tryRun_ok {exec : Options} {outcomes : Outcomes} {packets : List Packet}
    {rounds : List Round} {result : ExecResult}
    (h : tryRun exec outcomes packets rounds = some (.ok result)) :
    ∃ state, loop exec rounds { channel := { incoming := packets } } = (some (.ok ()), state) ∧
      result.stdoutText = state.result.stdoutText ∧ result.stderrText = state.result.stderrText ∧
      result.stdoutTruncated = state.result.stdoutTruncated ∧
      result.stderrTruncated = state.result.stderrTruncated := by
  unfold tryRun at h
  split at h
  · exact nomatch Option.some.inj h
  · split at h
    · exact nomatch h
    · exact nomatch Option.some.inj h
    · next state hloop =>
      refine ⟨state, hloop, ?_⟩
      split at h <;> obtain rfl := Except.ok.inj (Option.some.inj h) <;> exact ⟨rfl, rfl, rfl, rfl⟩

/-- Whatever the server sends on its two streams before the end of file, in whatever
pieces these arrive between libssh's calls, whatever the calls answer and whatever
the maximum: a successful `try_run` without a sink has captured both streams, into
one text when they are merged, and marks a text exactly when it dropped a byte of it.
Assumes: libssh reports the end of the channel only after the end of file was
received and with nothing left to read. -/
theorem tryRun_output_exact (exec : Options) (outcomes : Outcomes)
    (sent : List (Stream × Bytes)) (rounds : List Round) (result : ExecResult)
    (hsink : exec.sink = false)
    (hok : tryRun exec outcomes (packetsOf sent) rounds = some (.ok result)) :
    OutputExact exec (sentOn .stdout sent) (sentOn .stderr sent) result := by
  obtain ⟨state, hloop, hstdout, hstderr, hstdoutFlag, hstderrFlag⟩ := tryRun_ok hok
  obtain ⟨haccounted, heof⟩ := loop_spec hsink rounds _ (start_accounted exec sent)
  rw [hloop] at haccounted heof
  obtain ⟨kept, dropped, unread, hcollected, hholds, hwhole⟩ := haccounted
  obtain ⟨reported, hreported⟩ := heof rfl
  have hread : ∀ stream, kept stream ++ dropped stream = sentOn stream sent := by
    intro stream
    have hstream : kept stream ++ dropped stream ++ unread stream = sentOn stream sent :=
      hwhole stream
    rw [Channel.unread_eq_nil_of_isEof hholds hreported, List.append_nil] at hstream
    exact hstream
  rw [OutputExact, hstdout, hstderr, hstdoutFlag, hstderrFlag]
  exact hcollected.outputExact hread

/-- Two pieces of output with an error message between them, at most three bytes of
which are kept. -/
def reportSent : List (Stream × Bytes) :=
  [(.stdout, ascii "abc"), (.stderr, ascii "x"), (.stdout, ascii "de")]

/-- The last piece arrives in the second round, with the end of file right after it
was read. -/
def reportRounds : List Round :=
  [{ stdout := { beforePoll := 1 }, stderr := { beforePoll := 1 } },
    { stdout := { beforePoll := 1 }, beforeEof := 1 }, {}]

def reportResult : ExecResult where
  exitCode := 0
  stdoutText := ascii "abc"
  stderrText := ascii "x"
  stdoutTruncated := true

theorem tryRun_output_exact_report :
    tryRun { maxOutput := 3 } { waitExit := .ok { status := some 0 } } (packetsOf reportSent)
        reportRounds = some (.ok reportResult) ∧
      OutputExact { maxOutput := 3 } (sentOn .stdout reportSent) (sentOn .stderr reportSent)
        reportResult :=
  ⟨rfl, tryRun_output_exact _ { waitExit := .ok { status := some 0 } } reportSent reportRounds _
    rfl rfl⟩

end LibSshpp.Exec
