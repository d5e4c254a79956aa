import LibSshpp.Foundation.Bytes
import LibSshpp.Foundation.Error
import LibSshpp.Program.WriteAll

/-!
The byte pump between a channel and a local socket, which every forward runs on.
One round of the loop moves what the channel has to the socket and what the
socket has to the channel, through one buffer. Everything the kernel and libssh
decide in a round is an input of that round: what is available and delivered, how
much a `send` takes, how each `ssh_channel_write` ends, when the ends are
reached and when the pump is told to stop.
-/

set_option autoImplicit false
set_option relaxedAutoImplicit false

namespace LibSshpp.Forwarding

open Program

structure ForwardStats where
  connections : ℕ := 0
  bytesOut : ℕ := 0
  bytesIn : ℕ := 0
  rejected : ℕ := 0
  deriving DecidableEq, Repr

/-- The writing side of a channel: how the next `ssh_channel_write` calls end,
each with the number of bytes it takes or with an error, and the bytes the
channel has accepted. Calls beyond the list take everything. -/
structure ChannelWriter where
  answers : List (Result ℕ) := []
  accepted : Bytes := []

/-- `Channel::try_write_some`, which passes the length as a 32-bit number. -/
def tryWriteSome (data : Bytes) : StateM ChannelWriter (Result ℕ) := fun channel ↦
  let len := data.length % 2 ^ 32
  match channel.answers with
  | [] => (.ok len, { channel with accepted := channel.accepted ++ data.take len })
  | .ok taken :: answers =>
    (.ok (min taken len), {
      answers, accepted := channel.accepted ++ data.take (min taken len) })
  | .error info :: answers => (.error info, { channel with answers })

/-- `Channel::try_write_all`. -/
def tryWriteAll : Bytes → StateM ChannelWriter (Result Unit) :=
  writeAll {
    code := .ssh .channelClosed, message := "short write"
    operation := "Channel::try_write_all" } tryWriteSome

/-- What happens around the pump in one round of its loop: the stop flag, the
answers of `try_bytes_available` and `try_read_some`, the result of `send` (none
for an error), whether the channel is at its end, whether `poll` reports input,
what `recv` delivers (nothing at the end of the stream or on an error), and how
the `ssh_channel_write` calls end. -/
structure Round where
  stopRequested : Bool := false
  available : Result ℕ := .ok 0
  channelData : Result Bytes := .ok []
  sendResult : Option ℕ := none
  channelAtEof : Bool := false
  pollIn : Bool := false
  clientData : Bytes := []
  channelWrites : List (Result ℕ) := []

/-- The pump's variables, with the bytes that have gone through each of the four
ends so far. The flags also say that `shutdown` and `try_send_eof` were called,
and `done` that the loop was left and both sides closed. -/
structure PumpState where
  buf : Bytes
  stats : ForwardStats := {}
  clientEof : Bool := false
  channelEof : Bool := false
  done : Bool := false
  channelRead : Bytes := []
  clientAccepted : Bytes := []
  clientRead : Bytes := []
  channelAccepted : Bytes := []

/-- A read into the front of the buffer. -/
def overwrite (buf data : Bytes) : Bytes := data ++ buf.drop data.length

/-- The bytes `try_read_some` puts into a buffer of the given size, if it is
called and succeeds. -/
def readChannel (bufferSize : ℕ) (round : Round) : Bytes :=
  match round.available with
  | .error _ => []
  | .ok available =>
    if 0 < available then
      match round.channelData with
      | .error _ => []
      | .ok data => data.take (min bufferSize available)
    else []

/-- The channel's half of a round. -/
def channelTurn (bufferSize : ℕ) (round : Round) (state : PumpState) : PumpState :=
  if state.channelEof then state
  else
    let data := readChannel bufferSize round
    let state :=
      if 0 < data.length then
        let buf := overwrite state.buf data
        { state with
          buf
          channelRead := state.channelRead ++ data
          -- the result of `send` is not looked at
          clientAccepted := state.clientAccepted ++
            (buf.take data.length).take (round.sendResult.getD 0)
          stats := { state.stats with bytesOut := state.stats.bytesOut + data.length } }
      else state
    if round.channelAtEof then { state with channelEof := true } else state

/-- The client's half of a round. How long `poll` waits depends on the first
half; what it reports is an input. -/
def clientTurn (bufferSize : ℕ) (round : Round) (state : PumpState) : PumpState :=
  if state.clientEof then state
  else if round.pollIn then
    let data := round.clientData.take bufferSize
    if 0 < data.length then
      let buf := overwrite state.buf data
      -- nor is the result of `try_write_all`
      let (_, channel) := tryWriteAll (buf.take data.length) {
        answers := round.channelWrites, accepted := state.channelAccepted }
      { state with
        buf
        clientRead := state.clientRead ++ data
        channelAccepted := channel.accepted
        stats := { state.stats with bytesIn := state.stats.bytesIn + data.length } }
    else { state with clientEof := true }
  else state

/-- One turn of the loop, with its condition. -/
def pumpRound (bufferSize : ℕ) (round : Round) : StateM PumpState Unit := fun state ↦
  if state.done then ((), state)
  else if round.stopRequested || (state.clientEof && state.channelEof) then
    ((), { state with done := true })
  else ((), clientTurn bufferSize round (channelTurn bufferSize round state))

/-- The state after the given rounds of `pump`, counting on top of `stats`. -/
def pump (bufferSize : ℕ) (stats : ForwardStats) (rounds : List Round) : PumpState :=
  stateAfter (pumpRound bufferSize) rounds { buf := List.replicate bufferSize 0, stats }

/-- `BidirectionalPump::try_run_until_stopped`: the pump has no result of its own. -/
def tryRunUntilStopped (bufferSize : ℕ) (stats : ForwardStats) (rounds : List Round) :
    Result Unit × PumpState :=
  (.ok (), pump bufferSize stats rounds)

/-! ### What one round moves -/

/-- The loop condition holds at the start of the round. -/
def Runs (state : PumpState) (round : Round) : Prop :=
  state.done = false ∧ round.stopRequested = false ∧
    ¬ (state.clientEof = true ∧ state.channelEof = true)

instance (state : PumpState) (round : Round) : Decidable (Runs state round) :=
  inferInstanceAs (Decidable (_ ∧ _ ∧ ¬ (_ ∧ _)))

/-- The bytes the round hands to `send`. -/
def toClient (bufferSize : ℕ) (state : PumpState) (round : Round) : Bytes :=
  if Runs state round ∧ state.channelEof = false then readChannel bufferSize round else []

/-- The bytes the round hands to `try_write_all`. -/
def toChannel (bufferSize : ℕ) (state : PumpState) (round : Round) : Bytes :=
  if Runs state round ∧ state.clientEof = false ∧ round.pollIn = true then
    round.clientData.take bufferSize
  else []

/-- The channel has accepted the data on top of what it had. -/
def ChannelWriter.Accepted (before : ChannelWriter) (data : Bytes) (after : ChannelWriter) :
    Prop :=
  after.accepted = before.accepted ++ data

theorem accepts_tryWriteSome : Accepts ChannelWriter.Accepted tryWriteSome where
  refl := fun channel ↦ (List.append_nil channel.accepted).symm
  trans := by
    intro before middle after first second hfirst hsecond
    rw [ChannelWriter.Accepted, hsecond, hfirst, List.append_assoc]
  of_ok := by
    intro data channel taken after h
    have hlen : data.length % 2 ^ 32 ≤ data.length := Nat.mod_le _ _
    rcases channel with ⟨_ | ⟨_ | answer, answers⟩, accepted⟩ <;>
      obtain ⟨hresult, rfl⟩ := Prod.mk.inj h
    · obtain rfl := Except.ok.inj hresult
      exact ⟨hlen, rfl⟩
    · exact nomatch hresult
    · obtain rfl := Except.ok.inj hresult
      exact ⟨(min_le_right _ _).trans hlen, rfl⟩
  of_error := by
    intro data channel error after h
    rcases channel with ⟨_ | ⟨_ | answer, answers⟩, accepted⟩ <;>
      obtain ⟨hresult, rfl⟩ := Prod.mk.inj h
    · exact nomatch hresult
    · exact (List.append_nil accepted).symm
    · exact nomatch hresult

theorem take_overwrite (buf data : Bytes) : (overwrite buf data).take data.length = data :=
  List.take_left

/-- How `try_write_all` ends on the channel of a state. -/
def writeToChannel (round : Round) (state : PumpState) (data : Bytes) :
    Result Unit × ChannelWriter :=
  tryWriteAll data { answers := round.channelWrites, accepted := state.channelAccepted }

/-- A step that took `data` from the channel, of which the client got `taken`. -/
structure MovesOut (state after : PumpState) (data taken : Bytes) : Prop where
  channelRead : after.channelRead = state.channelRead ++ data
  clientAccepted : after.clientAccepted = state.clientAccepted ++ taken
  bytesOut : after.stats.bytesOut = state.stats.bytesOut + data.length

/-- A step that took `data` from the client, after which the channel has
accepted `accepted`. -/
structure MovesIn (state after : PumpState) (data accepted : Bytes) : Prop where
  clientRead : after.clientRead = state.clientRead ++ data
  channelAccepted : after.channelAccepted = accepted
  bytesIn : after.stats.bytesIn = state.stats.bytesIn + data.length

theorem MovesOut.nothing {state after : PumpState} (hread : after.channelRead = state.channelRead)
    (haccepted : after.clientAccepted = state.clientAccepted)
    (hcount : after.stats.bytesOut = state.stats.bytesOut) : MovesOut state after [] [] :=
  ⟨hread.trans (List.append_nil _).symm, haccepted.trans (List.append_nil _).symm, hcount⟩

theorem MovesIn.nothing {state after : PumpState} (hread : after.clientRead = state.clientRead)
    (haccepted : after.channelAccepted = state.channelAccepted)
    (hcount : after.stats.bytesIn = state.stats.bytesIn) :
    MovesIn state after [] state.channelAccepted :=
  ⟨hread.trans (List.append_nil _).symm, haccepted, hcount⟩

theorem channelTurn_moves (bufferSize : ℕ) (round : Round) (state : PumpState) :
    let data := if state.channelEof then [] else readChannel bufferSize round
    let after := channelTurn bufferSize round state
    MovesOut state after data (data.take (round.sendResult.getD 0)) ∧
      MovesIn state after [] state.channelAccepted ∧ after.clientEof = state.clientEof := by
  intro data after
  by_cases hchannel : state.channelEof
  · have hafter : after = state := if_pos hchannel
    have hdata : data = [] := if_pos hchannel
    rw [hafter, hdata, List.take_nil]
    exact ⟨.nothing rfl rfl rfl, .nothing rfl rfl rfl, rfl⟩
  · have hdata : data = readChannel bufferSize round := if_neg hchannel
    by_cases hpos : 0 < data.length
    · rw [hdata] at hpos
      have hafter : after = _ := if_neg hchannel
      rw [hafter, hdata]
      simp only [if_pos hpos, take_overwrite]
      split_ifs <;> exact ⟨⟨rfl, rfl, rfl⟩, .nothing rfl rfl rfl, rfl⟩
    · have hnil : data = [] := List.length_eq_zero_iff.mp (Nat.eq_zero_of_not_pos hpos)
      rw [hdata] at hpos
      have hafter : after = _ := if_neg hchannel
      rw [hafter, hnil, List.take_nil]
      simp only [if_neg hpos]
      split_ifs <;> exact ⟨.nothing rfl rfl rfl, .nothing rfl rfl rfl, rfl⟩

theorem clientTurn_moves (bufferSize : ℕ) (round : Round) (state : PumpState) :
    let data := if state.clientEof = false ∧ round.pollIn = true then
      round.clientData.take bufferSize else []
    let after := clientTurn bufferSize round state
    MovesOut state after [] [] ∧
      MovesIn state after data (writeToChannel round state data).2.accepted := by
  intro data after
  by_cases hactive : state.clientEof = false ∧ round.pollIn = true
  · have hdata : data = round.clientData.take bufferSize := if_pos hactive
    have hafter : after = _ := (if_neg (by simp [hactive.1])).trans (if_pos hactive.2)
    rw [hafter, hdata]
    by_cases hpos : 0 < (round.clientData.take bufferSize).length
    · simp only [if_pos hpos, take_overwrite]
      exact ⟨.nothing rfl rfl rfl, ⟨rfl, rfl, rfl⟩⟩
    · have hnil : round.clientData.take bufferSize = [] :=
        List.length_eq_zero_iff.mp (Nat.eq_zero_of_not_pos hpos)
      simp only [hnil, List.length_nil, lt_irrefl, if_false]
      exact ⟨.nothing rfl rfl rfl, .nothing rfl rfl rfl⟩
  · have hdata : data = [] := if_neg hactive
    have hafter : after = state := by
      change clientTurn bufferSize round state = state
      unfold clientTurn
      split_ifs with hclient hpoll
      · rfl
      · exact absurd ⟨by simpa using hclient, hpoll⟩ hactive
      · rfl
    rw [hafter, hdata]
    exact ⟨.nothing rfl rfl rfl, .nothing rfl rfl rfl⟩

/-- Everything a round does to the four streams and the counters. -/
theorem pumpRound_moves (bufferSize : ℕ) (round : Round) (state : PumpState) :
    MovesOut state (pumpRound bufferSize round state).2 (toClient bufferSize state round)
        ((toClient bufferSize state round).take (round.sendResult.getD 0)) ∧
      MovesIn state (pumpRound bufferSize round state).2 (toChannel bufferSize state round)
        (writeToChannel round state (toChannel bufferSize state round)).2.accepted := by
  by_cases hruns : Runs state round
  · obtain ⟨hdone, hstop, hends⟩ := hruns
    have hstep : (pumpRound bufferSize round state).2 =
        clientTurn bufferSize round (channelTurn bufferSize round state) := by
      have hcontinue : ¬ (round.stopRequested || state.clientEof && state.channelEof) = true := by
        simpa [hstop] using hends
      simp only [pumpRound, hdone, Bool.false_eq_true, if_false, if_neg hcontinue]
    obtain ⟨hout, hkept, hclient⟩ := channelTurn_moves bufferSize round state
    obtain ⟨hsame, hin⟩ := clientTurn_moves bufferSize round
      (channelTurn bufferSize round state)
    have htoClient : toClient bufferSize state round =
        if state.channelEof then [] else readChannel bufferSize round := by
      cases hchannel : state.channelEof <;> simp [toClient, Runs, hdone, hstop, hchannel]
    have htoChannel : toChannel bufferSize state round =
        if state.clientEof = false ∧ round.pollIn = true then
          round.clientData.take bufferSize else [] := by
      simp [toChannel, Runs, hdone, hstop, hends]
    rw [hstep, htoClient, htoChannel]
    rw [hclient] at hin
    simp only [writeToChannel, hkept.channelAccepted] at hin ⊢
    refine ⟨⟨?_, ?_, ?_⟩, ⟨?_, hin.channelAccepted, ?_⟩⟩
    · rw [hsame.channelRead, hout.channelRead, List.append_nil]
    · rw [hsame.clientAccepted, hout.clientAccepted, List.append_nil]
    · rw [hsame.bytesOut, hout.bytesOut, List.length_nil, Nat.add_zero]
    · rw [hin.clientRead, hkept.clientRead, List.append_nil]
    · rw [hin.bytesIn, hkept.bytesIn, List.length_nil, Nat.add_zero]
  · have htoClient : toClient bufferSize state round = [] := if_neg fun h ↦ hruns h.1
    have htoChannel : toChannel bufferSize state round = [] := if_neg fun h ↦ hruns h.1
    rw [htoClient, htoChannel, List.take_nil]
    unfold pumpRound
    split_ifs with hdone hstop
    · exact ⟨.nothing rfl rfl rfl, .nothing rfl rfl rfl⟩
    · exact ⟨.nothing rfl rfl rfl, .nothing rfl rfl rfl⟩
    · refine absurd ⟨by simpa using hdone, ?_⟩ hruns
      simpa [not_or] using hstop

/-! ### Whole runs -/

/-- Both directions are in step after the rounds `served` of a run: each end has
accepted a prefix of what the other delivered, what is not accepted yet is
accepted later in the run unless the pump ends with an error, and the counters
have grown by the bytes accepted. -/
structure InStep (bufferSize : ℕ) (stats : ForwardStats) (rounds served : List Round) : Prop where
  clientPrefix : (pump bufferSize stats served).clientAccepted <+:
    (pump bufferSize stats served).channelRead
  channelPrefix : (pump bufferSize stats served).channelAccepted <+:
    (pump bufferSize stats served).clientRead
  retried : (∃ later, served <+: later ∧ later <+: rounds ∧
      (pump bufferSize stats served).channelRead <+:
        (pump bufferSize stats later).clientAccepted ∧
      (pump bufferSize stats served).clientRead <+:
        (pump bufferSize stats later).channelAccepted) ∨
    ∃ info, (tryRunUntilStopped bufferSize stats rounds).1 = .error info
  bytesOut : (pump bufferSize stats served).stats.bytesOut =
    stats.bytesOut + (pump bufferSize stats served).clientAccepted.length
  bytesIn : (pump bufferSize stats served).stats.bytesIn =
    stats.bytesIn + (pump bufferSize stats served).channelAccepted.length

/-- In this round every `send` takes all it is given and every `try_write_all`
succeeds. -/
def TakesAll (bufferSize : ℕ) (state : PumpState) (round : Round) : Prop :=
  (toClient bufferSize state round).length ≤ round.sendResult.getD 0 ∧
    (writeToChannel round state (toChannel bufferSize state round)).1 = .ok ()

/-- Nothing is lost so far. -/
structure Lossless (stats : ForwardStats) (state : PumpState) : Prop where
  clientAccepted : state.clientAccepted = state.channelRead
  channelAccepted : state.channelAccepted = state.clientRead
  bytesOut : state.stats.bytesOut = stats.bytesOut + state.clientAccepted.length
  bytesIn : state.stats.bytesIn = stats.bytesIn + state.channelAccepted.length

theorem writeToChannel_wrote (round : Round) (state : PumpState) (data : Bytes) :
    Wrote ChannelWriter.Accepted
      { answers := round.channelWrites, accepted := state.channelAccepted } data
      (writeToChannel round state data).1 (writeToChannel round state data).2 :=
  accepts_tryWriteSome.writeAll_wrote data _

theorem lossless_pumpRound (bufferSize : ℕ) (stats : ForwardStats) (round : Round) :
    Triple (fun state ↦ Lossless stats state ∧ TakesAll bufferSize state round)
      (pumpRound bufferSize round) fun _ ↦ Lossless stats := by
  intro state ⟨hlossless, hsend, hwrite⟩
  obtain ⟨hout, hin⟩ := pumpRound_moves bufferSize round state
  have hwrote := writeToChannel_wrote round state (toChannel bufferSize state round)
  rw [hwrite] at hwrote
  change _ = state.channelAccepted ++ toChannel bufferSize state round at hwrote
  rw [List.take_of_length_le hsend] at hout
  rw [hwrote] at hin
  refine ⟨?_, ?_, ?_, ?_⟩
  · rw [hout.clientAccepted, hout.channelRead, hlossless.clientAccepted]
  · rw [hin.channelAccepted, hin.clientRead, hlossless.channelAccepted]
  · rw [hout.bytesOut, hout.clientAccepted, hlossless.bytesOut, List.length_append, Nat.add_assoc]
  · rw [hin.bytesIn, hin.channelAccepted, hlossless.bytesIn, List.length_append, Nat.add_assoc]

/-- The counters alone show a transfer that was cut short. -/
theorem takesAll_of_counted (bufferSize : ℕ) (stats : ForwardStats) (round : Round)
    (state : PumpState)
    (hbefore : state.stats.bytesOut = stats.bytesOut + state.clientAccepted.length ∧
      state.stats.bytesIn = stats.bytesIn + state.channelAccepted.length)
    (hafter : (pumpRound bufferSize round state).2.stats.bytesOut =
        stats.bytesOut + (pumpRound bufferSize round state).2.clientAccepted.length ∧
      (pumpRound bufferSize round state).2.stats.bytesIn =
        stats.bytesIn + (pumpRound bufferSize round state).2.channelAccepted.length) :
    TakesAll bufferSize state round := by
  obtain ⟨hout, hin⟩ := pumpRound_moves bufferSize round state
  obtain ⟨hafterOut, hafterIn⟩ := hafter
  rw [hout.bytesOut, hout.clientAccepted, List.length_append, List.length_take, hbefore.1]
    at hafterOut
  rw [hin.bytesIn, hin.channelAccepted, hbefore.2] at hafterIn
  refine ⟨by omega, ?_⟩
  have hwrote := writeToChannel_wrote round state (toChannel bufferSize state round)
  rcases hresult : (writeToChannel round state (toChannel bufferSize state round)).1
    with info | _
  · rw [hresult] at hwrote
    obtain ⟨taken, htaken, haccepted⟩ := hwrote
    change _ = state.channelAccepted ++ _ at haccepted
    rw [haccepted, List.length_append, List.length_take] at hafterIn
    omega
  · rfl

/-- For every buffer size and every schedule, the two directions are in step
after every round if and only if in every round each `send` takes all the bytes
it is given and each `try_write_all` succeeds. -/
theorem pump_inStep_iff (bufferSize : ℕ) (stats : ForwardStats) (rounds : List Round) :
    (∀ served, served <+: rounds → InStep bufferSize stats rounds served) ↔
      Allowed (pumpRound bufferSize) (TakesAll bufferSize) rounds
        { buf := List.replicate bufferSize 0, stats } := by
  constructor
  · intro hinStep
    refine allowed_of_invariant
      (fun round state hbefore hafter ↦
        takesAll_of_counted bufferSize stats round state hbefore hafter) ?_
    exact fun served hserved ↦ ⟨(hinStep served hserved).bytesOut, (hinStep served hserved).bytesIn⟩
  · intro hallowed served hserved
    have hlossless : Lossless stats (pump bufferSize stats served) :=
      invariant_of_allowed (lossless_pumpRound bufferSize stats) hallowed ⟨rfl, rfl, rfl, rfl⟩
        hserved
    exact {
      clientPrefix := hlossless.clientAccepted ▸ List.prefix_rfl
      channelPrefix := hlossless.channelAccepted ▸ List.prefix_rfl
      retried := .inl ⟨served, List.prefix_rfl, hserved,
        hlossless.clientAccepted ▸ List.prefix_rfl, hlossless.channelAccepted ▸ List.prefix_rfl⟩
      bytesOut := hlossless.bytesOut
      bytesIn := hlossless.bytesIn }

/-- The channel delivers two bytes of which the socket takes one, then a third. -/
def shortSend : List Round :=
  [{ available := .ok 2, channelData := .ok [0x61, 0x62], sendResult := some 1 },
    { available := .ok 1, channelData := .ok [0x63], sendResult := some 1 }]

theorem shortSend_loses_byte :
    (tryRunUntilStopped 4 {} shortSend).1 = .ok () ∧
      (pump 4 {} shortSend).channelRead = [0x61, 0x62, 0x63] ∧
      (pump 4 {} shortSend).clientAccepted = [0x61, 0x63] ∧
      (pump 4 {} shortSend).stats.bytesOut = 3 ∧
      ¬ ∀ served, served <+: shortSend → InStep 4 {} shortSend served := by
  refine ⟨rfl, rfl, rfl, rfl, fun h ↦ ?_⟩
  have hlast := (h shortSend List.prefix_rfl).bytesOut
  exact absurd hlast (by decide)

end LibSshpp.Forwarding
