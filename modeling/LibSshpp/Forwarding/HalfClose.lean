import LibSshpp.Forwarding.Pump
import LibSshpp.Program.Trace

/-!
The calls the pump makes on the socket and on the channel, in their order, and the half-close
they amount to: the end of one direction is passed on once, behind all its data, and leaves the
other direction alone.
-/

set_option autoImplicit false
set_option relaxedAutoImplicit false

namespace LibSshpp.Forwarding

open Program

/-- The calls of the pump, with what they deliver or are given: reading from the channel, `send`,
`is_eof`, `shutdown(SHUT_WR)`, `recv` (nothing at the end of the stream or on an error),
`try_write_all`, `try_send_eof`, `try_close` and `close`. -/
inductive PumpCall
  | readChannel (data : Bytes)
  | send (data : Bytes) (result : Option ℕ)
  | isEof (answer : Bool)
  | shutdownWrite
  | recv (data : Bytes)
  | writeAll (data : Bytes)
  | sendEof
  | closeChannel
  | closeSocket
  deriving DecidableEq, Repr

/-- What is done with the bytes that could be read from the channel. -/
def deliveryCalls (data : Bytes) (result : Option ℕ) : List PumpCall :=
  if 0 < data.length then [.readChannel data, .send data result] else []

/-- What is done about the end of the channel. -/
def endCalls (atEof : Bool) : List PumpCall :=
  .isEof atEof :: (if atEof then [.shutdownWrite] else [])

/-- The calls of the channel's half of a round. -/
def channelCalls (bufferSize : ℕ) (round : Round) (state : PumpState) : List PumpCall :=
  if state.channelEof then []
  else deliveryCalls (readChannel bufferSize round) round.sendResult ++ endCalls round.channelAtEof

/-- The calls of the client's half of a round. -/
def clientCalls (bufferSize : ℕ) (round : Round) (state : PumpState) : List PumpCall :=
  if state.clientEof then []
  else if round.pollIn then
    let data := round.clientData.take bufferSize
    .recv data :: (if 0 < data.length then [.writeAll data] else [.sendEof])
  else []

/-- The calls of one turn of the loop, or those behind the loop when it is left. -/
def roundCalls (bufferSize : ℕ) (round : Round) (state : PumpState) : List PumpCall :=
  if state.done then []
  else if round.stopRequested || (state.clientEof && state.channelEof) then
    [.closeChannel, .closeSocket]
  else
    channelCalls bufferSize round state ++
      clientCalls bufferSize round (channelTurn bufferSize round state)

/-- The pump before its first round. -/
def pumpStart (bufferSize : ℕ) (stats : ForwardStats) : PumpState :=
  { buf := List.replicate bufferSize 0, stats }

/-- The calls of the pump in the given rounds. -/
def pumpCalls (bufferSize : ℕ) (stats : ForwardStats) (rounds : List Round) : List PumpCall :=
  eventsOf (pumpRound bufferSize) (roundCalls bufferSize) rounds (pumpStart bufferSize stats)

/-! ### What a half-close is -/

/-- The bytes the socket has taken. -/
def sentBytes (calls : List PumpCall) : Bytes :=
  calls.flatMap fun
    | .send data result => data.take (result.getD 0)
    | _ => []

/-- Whether the call uses the writing side of the socket, or ends it. -/
def PumpCall.writesSocket : PumpCall → Bool
  | .send _ _ => true
  | .shutdownWrite => true
  | _ => false

/-- Whether the call uses the writing side of the channel, or ends it. -/
def PumpCall.writesChannel : PumpCall → Bool
  | .writeAll _ => true
  | .sendEof => true
  | _ => false

/-- Whether the call ends a direction or a side. -/
def PumpCall.ends : PumpCall → Bool
  | .shutdownWrite => true
  | .sendEof => true
  | .closeChannel => true
  | .closeSocket => true
  | _ => false

/-- Whether a call may be made after another: a side that was ended is not written to or ended
again, and behind the closing there is nothing. -/
structure MayFollow (earlier later : PumpCall) : Prop where
  socket : earlier = .shutdownWrite → later.writesSocket = false
  channel : earlier = .sendEof → later.writesChannel = false
  closing : earlier = .closeChannel → later = .closeSocket
  closed : earlier ≠ .closeSocket

/-- Whether the channel is at its end when it says so: the peer's data was read to the last
byte. -/
def EofIsEnd (bufferSize : ℕ) (peerSent : Bytes) (state : PumpState) (round : Round) : Prop :=
  Runs state round → state.channelEof = false → round.channelAtEof = true →
    state.channelRead ++ readChannel bufferSize round = peerSent

/-- The calls of the pump in a schedule are a half-close. -/
structure HalfCloses (bufferSize : ℕ) (stats : ForwardStats) (peerSent : Bytes)
    (rounds : List Round) : Prop where
  ordered : (pumpCalls bufferSize stats rounds).Pairwise MayFollow
  shutdown : Preceded .shutdownWrite
    (fun before ↦ .isEof true ∈ before ∧ sentBytes before = peerSent)
    (pumpCalls bufferSize stats rounds)
  sendEof : Preceded .sendEof (fun before ↦ .recv [] ∈ before) (pumpCalls bufferSize stats rounds)
  /-- As long as nobody asks the pump to stop, what a direction delivers that has not ended is
  passed on. -/
  goesOn : ∀ served round, served ++ [round] <+: rounds →
    (∀ other ∈ served ++ [round], other.stopRequested = false) →
      ∃ calls, pumpCalls bufferSize stats (served ++ [round]) =
          pumpCalls bufferSize stats served ++ calls ∧
        (.shutdownWrite ∉ pumpCalls bufferSize stats served →
          readChannel bufferSize round ≠ [] →
            .send (readChannel bufferSize round) round.sendResult ∈ calls) ∧
        (.sendEof ∉ pumpCalls bufferSize stats served → round.pollIn = true →
          round.clientData.take bufferSize ≠ [] →
            .writeAll (round.clientData.take bufferSize) ∈ calls)
  /-- The loop is left when the pump is asked to stop or both directions have ended, and then
  both sides are closed. -/
  exits : ∀ served round, served ++ [round] <+: rounds →
    round.stopRequested = true ∨ .shutdownWrite ∈ pumpCalls bufferSize stats served ∧
        .sendEof ∈ pumpCalls bufferSize stats served →
      ∃ before, pumpCalls bufferSize stats (served ++ [round]) =
        before ++ [.closeChannel, .closeSocket]
  /-- And it is left for no other reason. -/
  stays : ∀ served, served <+: rounds →
    .closeChannel ∈ pumpCalls bufferSize stats served ∨
        .closeSocket ∈ pumpCalls bufferSize stats served →
      (∃ round ∈ served, round.stopRequested = true) ∨
        .shutdownWrite ∈ pumpCalls bufferSize stats served ∧
          .sendEof ∈ pumpCalls bufferSize stats served

/-! ### The halves of a round -/

section Halves

variable (bufferSize : ℕ) (round : Round) (state : PumpState)

theorem channelTurn_flags :
    (channelTurn bufferSize round state).channelEof = (state.channelEof || round.channelAtEof) ∧
      (channelTurn bufferSize round state).done = state.done := by
  by_cases hchannel : state.channelEof = true
  · rw [channelTurn, if_pos hchannel, hchannel]
    exact ⟨rfl, rfl⟩
  · have hopen : state.channelEof = false := by simpa using hchannel
    have hends : (state.channelEof || round.channelAtEof) = round.channelAtEof := by
      rw [hopen, Bool.false_or]
    rw [channelTurn, if_neg hchannel, hends]
    by_cases hend : round.channelAtEof = true
    · simp only [if_pos hend]
      split_ifs <;> exact ⟨hend.symm, rfl⟩
    · have hmore : round.channelAtEof = false := by simpa using hend
      simp only [if_neg hend]
      split_ifs <;> exact ⟨hopen.trans hmore.symm, rfl⟩

theorem clientTurn_flags :
    (clientTurn bufferSize round state).channelEof = state.channelEof ∧
      (clientTurn bufferSize round state).done = state.done ∧
      ((clientTurn bufferSize round state).clientEof = true ↔ state.clientEof = true ∨
        round.pollIn = true ∧ round.clientData.take bufferSize = []) := by
  unfold clientTurn
  by_cases hclient : state.clientEof = true
  · rw [if_pos hclient]
    exact ⟨rfl, rfl, fun _ ↦ .inl hclient, fun _ ↦ hclient⟩
  · rw [if_neg hclient]
    by_cases hpoll : round.pollIn = true
    · rw [if_pos hpoll]
      by_cases hdata : 0 < (round.clientData.take bufferSize).length
      · simp only [if_pos hdata]
        exact ⟨rfl, rfl, fun h ↦ .inl h,
          fun h ↦ h.resolve_right fun hend ↦ List.ne_nil_of_length_pos hdata hend.2⟩
      · have hnil : round.clientData.take bufferSize = [] :=
          List.length_eq_zero_iff.mp (Nat.eq_zero_of_not_pos hdata)
        rw [hnil]
        exact ⟨rfl, rfl, fun _ ↦ .inr ⟨hpoll, rfl⟩, fun _ ↦ rfl⟩
    · rw [if_neg hpoll]
      exact ⟨rfl, rfl, fun h ↦ .inl h, fun h ↦ h.resolve_right fun hend ↦ hpoll hend.1⟩

variable {bufferSize round state}

theorem mem_deliveryCalls {data : Bytes} {result : Option ℕ} {call : PumpCall} :
    call ∈ deliveryCalls data result ↔
      data ≠ [] ∧ (call = .readChannel data ∨ call = .send data result) := by
  rcases data with _ | ⟨byte, data⟩
  · simp [deliveryCalls]
  · simp [deliveryCalls]

theorem mem_endCalls {atEof : Bool} {call : PumpCall} :
    call ∈ endCalls atEof ↔ call = .isEof atEof ∨ atEof = true ∧ call = .shutdownWrite := by
  cases atEof <;> simp [endCalls]

theorem mem_channelCalls {call : PumpCall} :
    call ∈ channelCalls bufferSize round state ↔ state.channelEof = false ∧
      (call ∈ deliveryCalls (readChannel bufferSize round) round.sendResult ∨
        call ∈ endCalls round.channelAtEof) := by
  unfold channelCalls
  cases state.channelEof with
  | true => simp
  | false => simp

/-- The channel's half of a round uses a socket that is still open for writing. -/
theorem channelCalls_safe {call : PumpCall} (h : call ∈ channelCalls bufferSize round state) :
    state.channelEof = false ∧ call.writesChannel = false ∧ call ≠ .closeChannel ∧
      call ≠ .closeSocket := by
  obtain ⟨hchannel, hdelivery | hend⟩ := mem_channelCalls.mp h
  · obtain ⟨-, rfl | rfl⟩ := mem_deliveryCalls.mp hdelivery <;> exact ⟨hchannel, rfl, nofun, nofun⟩
  · obtain rfl | ⟨-, rfl⟩ := mem_endCalls.mp hend <;> exact ⟨hchannel, rfl, nofun, nofun⟩

theorem shutdownWrite_mem_channelCalls :
    .shutdownWrite ∈ channelCalls bufferSize round state ↔
      state.channelEof = false ∧ round.channelAtEof = true := by
  rw [mem_channelCalls, mem_deliveryCalls, mem_endCalls]
  simp

/-- A call that ends nothing may be followed by any. -/
theorem mayFollow_of_open {earlier : PumpCall} (h : earlier.ends = false) (later : PumpCall) :
    MayFollow earlier later := by
  constructor <;> rintro rfl <;> exact nomatch h

theorem channelCalls_ordered : (channelCalls bufferSize round state).Pairwise MayFollow := by
  unfold channelCalls
  split_ifs
  · exact List.Pairwise.nil
  · rw [List.pairwise_append]
    refine ⟨?_, ?_, fun earlier hearlier later _ ↦ ?_⟩
    · unfold deliveryCalls
      split_ifs
      · exact List.pairwise_pair.mpr (mayFollow_of_open rfl _)
      · exact List.Pairwise.nil
    · unfold endCalls
      split_ifs
      · exact List.pairwise_pair.mpr (mayFollow_of_open rfl _)
      · exact List.pairwise_singleton _ _
    · obtain ⟨-, rfl | rfl⟩ := mem_deliveryCalls.mp hearlier <;>
        exact mayFollow_of_open rfl later

theorem sentBytes_append (calls more : List PumpCall) :
    sentBytes (calls ++ more) = sentBytes calls ++ sentBytes more := List.flatMap_append

theorem sentBytes_deliveryCalls (data : Bytes) (result : Option ℕ) :
    sentBytes (deliveryCalls data result) = data.take (result.getD 0) := by
  rcases data with _ | ⟨byte, data⟩
  · exact List.take_nil.symm
  · exact List.append_nil _

theorem sentBytes_channelCalls :
    sentBytes (channelCalls bufferSize round state) =
      (if state.channelEof then [] else readChannel bufferSize round).take
        (round.sendResult.getD 0) := by
  have hend : sentBytes (endCalls round.channelAtEof) = [] := by
    cases round.channelAtEof <;> rfl
  unfold channelCalls
  cases state.channelEof with
  | true => exact List.take_nil.symm
  | false =>
    rw [if_neg Bool.false_ne_true, if_neg Bool.false_ne_true, sentBytes_append,
      sentBytes_deliveryCalls, hend, List.append_nil]

theorem mem_clientCalls {call : PumpCall} :
    call ∈ clientCalls bufferSize round state ↔ state.clientEof = false ∧ round.pollIn = true ∧
      (call = .recv (round.clientData.take bufferSize) ∨
        round.clientData.take bufferSize ≠ [] ∧
          call = .writeAll (round.clientData.take bufferSize) ∨
        round.clientData.take bufferSize = [] ∧ call = .sendEof) := by
  unfold clientCalls
  cases state.clientEof with
  | true => simp
  | false =>
    cases round.pollIn with
    | false => simp
    | true => rcases round.clientData.take bufferSize with _ | ⟨byte, data⟩ <;> simp

/-- The client's half of a round uses a channel that is still open for writing. -/
theorem clientCalls_safe {call : PumpCall} (h : call ∈ clientCalls bufferSize round state) :
    state.clientEof = false ∧ call.writesSocket = false ∧ call ≠ .closeChannel ∧
      call ≠ .closeSocket := by
  obtain ⟨hclient, -, rfl | ⟨-, rfl⟩ | ⟨-, rfl⟩⟩ := mem_clientCalls.mp h <;>
    exact ⟨hclient, rfl, nofun, nofun⟩

theorem sendEof_mem_clientCalls :
    .sendEof ∈ clientCalls bufferSize round state ↔
      state.clientEof = false ∧ round.pollIn = true ∧
        round.clientData.take bufferSize = [] := by
  rw [mem_clientCalls]
  simp

theorem clientCalls_ordered : (clientCalls bufferSize round state).Pairwise MayFollow := by
  unfold clientCalls
  dsimp only
  split_ifs
  · exact List.Pairwise.nil
  · exact List.pairwise_pair.mpr (mayFollow_of_open rfl _)
  · exact List.pairwise_pair.mpr (mayFollow_of_open rfl _)
  · exact List.Pairwise.nil

/-- The end is sent right after the `recv` that found it. -/
theorem clientCalls_preceded :
    Preceded .sendEof (fun before ↦ .recv [] ∈ before) (clientCalls bufferSize round state) := by
  by_cases hend : .sendEof ∈ clientCalls bufferSize round state
  · obtain ⟨hclient, hpoll, hnil⟩ := sendEof_mem_clientCalls.mp hend
    have hcalls : clientCalls bufferSize round state = [.recv [], .sendEof] := by
      simp [clientCalls, hclient, hpoll, hnil]
    have hne : PumpCall.recv [] ≠ .sendEof := nofun
    rw [hcalls, preceded_cons_of_ne hne, preceded_singleton]
    exact List.mem_singleton_self _
  · exact preceded_of_notMem hend

end Halves

/-! ### What a round keeps -/

/-- The flags of the pump and the bytes the client has accepted, as the calls so far tell
them. -/
structure Recorded (state : PumpState) (calls : List PumpCall) : Prop where
  shutdown : .shutdownWrite ∈ calls ↔ state.channelEof = true
  sendEof : .sendEof ∈ calls ↔ state.clientEof = true
  running : state.done = false → .closeChannel ∉ calls ∧ .closeSocket ∉ calls
  closed : state.done = true → ∃ before, calls = before ++ [.closeChannel, .closeSocket]
  sent : sentBytes calls = state.clientAccepted
  ordered : calls.Pairwise MayFollow
  endAfterRecv : Preceded .sendEof (fun before ↦ .recv [] ∈ before) calls

theorem recorded_pumpStart (bufferSize : ℕ) (stats : ForwardStats) :
    Recorded (pumpStart bufferSize stats) [] where
  shutdown := ⟨fun h ↦ absurd h List.not_mem_nil, nofun⟩
  sendEof := ⟨fun h ↦ absurd h List.not_mem_nil, nofun⟩
  running _ := ⟨List.not_mem_nil, List.not_mem_nil⟩
  closed := nofun
  sent := rfl
  ordered := List.Pairwise.nil
  endAfterRecv := preceded_of_notMem List.not_mem_nil

section Recorded

variable {bufferSize : ℕ} {round : Round} {state : PumpState} {calls : List PumpCall}

/-- While the pump runs, a call may be made that uses only what is open. -/
theorem Recorded.mayFollow (h : Recorded state calls) (hrunning : state.done = false)
    {earlier later : PumpCall} (hearlier : earlier ∈ calls)
    (hsocket : later.writesSocket = true → state.channelEof = false)
    (hchannel : later.writesChannel = true → state.clientEof = false) :
    MayFollow earlier later where
  socket heq := by
    rw [heq, h.shutdown] at hearlier
    exact Bool.eq_false_iff.mpr fun hwrites ↦ Bool.false_ne_true
      ((hsocket hwrites).symm.trans hearlier)
  channel heq := by
    rw [heq, h.sendEof] at hearlier
    exact Bool.eq_false_iff.mpr fun hwrites ↦ Bool.false_ne_true
      ((hchannel hwrites).symm.trans hearlier)
  closing heq := absurd (heq ▸ hearlier) (h.running hrunning).1
  closed heq := absurd (heq ▸ hearlier) (h.running hrunning).2

theorem recorded_channelTurn (h : Recorded state calls) (hrunning : state.done = false) :
    Recorded (channelTurn bufferSize round state)
      (calls ++ channelCalls bufferSize round state) := by
  obtain ⟨hchannel, hdone⟩ := channelTurn_flags bufferSize round state
  obtain ⟨hout, -, hclient⟩ := channelTurn_moves bufferSize round state
  have hnoEnd : .sendEof ∉ channelCalls bufferSize round state := fun hmem ↦
    nomatch (channelCalls_safe hmem).2.1
  constructor
  · rw [List.mem_append, h.shutdown, shutdownWrite_mem_channelCalls, hchannel, Bool.or_eq_true]
    cases state.channelEof <;> simp
  · rw [List.mem_append, h.sendEof, hclient, or_iff_left hnoEnd]
  · refine fun _ ↦ ⟨fun hmem ↦ ?_, fun hmem ↦ ?_⟩
    · rcases List.mem_append.mp hmem with hmem | hmem
      · exact (h.running hrunning).1 hmem
      · exact (channelCalls_safe hmem).2.2.1 rfl
    · rcases List.mem_append.mp hmem with hmem | hmem
      · exact (h.running hrunning).2 hmem
      · exact (channelCalls_safe hmem).2.2.2 rfl
  · rw [hdone, hrunning]
    exact nofun
  · rw [sentBytes_append, h.sent, sentBytes_channelCalls, hout.clientAccepted]
  · refine List.pairwise_append.mpr ⟨h.ordered, channelCalls_ordered,
      fun earlier hearlier later hlater ↦ ?_⟩
    obtain ⟨hopen, hwrites, -, -⟩ := channelCalls_safe hlater
    exact h.mayFollow hrunning hearlier (fun _ ↦ hopen) fun htrue ↦ by
      rw [hwrites] at htrue
      exact nomatch htrue
  · exact preceded_append.mpr ⟨h.endAfterRecv, preceded_of_notMem hnoEnd⟩

theorem sentBytes_clientCalls : sentBytes (clientCalls bufferSize round state) = [] := by
  refine List.flatMap_eq_nil_iff.mpr fun call hcall ↦ ?_
  obtain ⟨-, -, rfl | ⟨-, rfl⟩ | ⟨-, rfl⟩⟩ := mem_clientCalls.mp hcall <;> rfl

theorem recorded_clientTurn (h : Recorded state calls) (hrunning : state.done = false) :
    Recorded (clientTurn bufferSize round state)
      (calls ++ clientCalls bufferSize round state) := by
  obtain ⟨hchannel, hdone, hclient⟩ := clientTurn_flags bufferSize round state
  obtain ⟨hout, -⟩ := clientTurn_moves bufferSize round state
  have hnoShutdown : .shutdownWrite ∉ clientCalls bufferSize round state := fun hmem ↦
    nomatch (clientCalls_safe hmem).2.1
  constructor
  · rw [List.mem_append, h.shutdown, hchannel, or_iff_left hnoShutdown]
  · rw [List.mem_append, h.sendEof, sendEof_mem_clientCalls, hclient]
    cases state.clientEof <;> simp
  · refine fun _ ↦ ⟨fun hmem ↦ ?_, fun hmem ↦ ?_⟩
    · rcases List.mem_append.mp hmem with hmem | hmem
      · exact (h.running hrunning).1 hmem
      · exact (clientCalls_safe hmem).2.2.1 rfl
    · rcases List.mem_append.mp hmem with hmem | hmem
      · exact (h.running hrunning).2 hmem
      · exact (clientCalls_safe hmem).2.2.2 rfl
  · rw [hdone, hrunning]
    exact nofun
  · rw [sentBytes_append, h.sent, sentBytes_clientCalls, hout.clientAccepted]
  · refine List.pairwise_append.mpr ⟨h.ordered, clientCalls_ordered,
      fun earlier hearlier later hlater ↦ ?_⟩
    obtain ⟨hopen, hwrites, -, -⟩ := clientCalls_safe hlater
    exact h.mayFollow hrunning hearlier (fun htrue ↦ by
      rw [hwrites] at htrue
      exact nomatch htrue) fun _ ↦ hopen
  · refine preceded_append.mpr ⟨h.endAfterRecv, fun before hbefore ↦ ?_⟩
    exact List.mem_append_right _ (clientCalls_preceded before hbefore)

/-- The loop is left. -/
theorem recorded_close (h : Recorded state calls) (hrunning : state.done = false) :
    Recorded { state with done := true } (calls ++ [.closeChannel, .closeSocket]) where
  shutdown := by rw [List.mem_append, h.shutdown]; simp
  sendEof := by rw [List.mem_append, h.sendEof]; simp
  running := nofun
  closed _ := ⟨calls, rfl⟩
  sent := by
    rw [sentBytes_append, h.sent]
    exact List.append_nil _
  ordered := by
    refine List.pairwise_append.mpr ⟨h.ordered, List.pairwise_pair.mpr ?_, ?_⟩
    · exact ⟨nofun, nofun, fun _ ↦ rfl, nofun⟩
    · intro earlier hearlier later hlater
      have hidle : later.writesSocket = false ∧ later.writesChannel = false := by
        rcases List.mem_pair.mp hlater with rfl | rfl <;> exact ⟨rfl, rfl⟩
      exact h.mayFollow hrunning hearlier (fun htrue ↦ nomatch hidle.1.symm.trans htrue)
        fun htrue ↦ nomatch hidle.2.symm.trans htrue
  endAfterRecv := preceded_append.mpr ⟨h.endAfterRecv, preceded_of_notMem (by simp)⟩

theorem pumpRound_of_runs (h : Runs state round) :
    (pumpRound bufferSize round state).2 =
        clientTurn bufferSize round (channelTurn bufferSize round state) ∧
      roundCalls bufferSize round state = channelCalls bufferSize round state ++
        clientCalls bufferSize round (channelTurn bufferSize round state) := by
  obtain ⟨hdone, hstop, hends⟩ := h
  have hcontinue : ¬ (round.stopRequested || state.clientEof && state.channelEof) = true := by
    simpa [hstop] using hends
  have hrunning : ¬ state.done = true := by simp [hdone]
  constructor
  · rw [pumpRound, if_neg hrunning, if_neg hcontinue]
  · rw [roundCalls, if_neg hrunning, if_neg hcontinue]

theorem recorded_pumpRound (h : Recorded state calls) :
    Recorded (pumpRound bufferSize round state).2 (calls ++ roundCalls bufferSize round state) := by
  by_cases hdone : state.done = true
  · rw [pumpRound, roundCalls, if_pos hdone, if_pos hdone, List.append_nil]
    exact h
  have hrunning : state.done = false := by simpa using hdone
  by_cases hruns : Runs state round
  · obtain ⟨hstate, hcalls⟩ := pumpRound_of_runs hruns
    have hdone' := (channelTurn_flags bufferSize round state).2
    rw [hstate, hcalls, ← List.append_assoc]
    exact recorded_clientTurn (recorded_channelTurn h hrunning) (hdone'.trans hrunning)
  · have hleaves : (round.stopRequested || state.clientEof && state.channelEof) = true := by
      by_contra hcontinue
      refine hruns ⟨hrunning, ?_⟩
      simpa [not_or] using hcontinue
    rw [pumpRound, roundCalls, if_neg hdone, if_neg hdone, if_pos hleaves, if_pos hleaves]
    exact recorded_close h hrunning

theorem shutdownWrite_mem_roundCalls (h : .shutdownWrite ∈ roundCalls bufferSize round state) :
    Runs state round ∧ state.channelEof = false ∧ round.channelAtEof = true := by
  by_cases hruns : Runs state round
  · rw [(pumpRound_of_runs hruns).2] at h
    rcases List.mem_append.mp h with hmem | hmem
    · exact ⟨hruns, shutdownWrite_mem_channelCalls.mp hmem⟩
    · exact nomatch (clientCalls_safe hmem).2.1
  · unfold roundCalls at h
    split_ifs at h with hdone hleaves
    · exact absurd h List.not_mem_nil
    · simp at h
    · refine absurd ⟨by simpa using hdone, ?_⟩ hruns
      simpa [not_or] using hleaves

/-- The socket is shut down behind the last byte of the peer. -/
theorem shutdown_roundCalls {stats : ForwardStats} {peerSent : Bytes}
    (hrecorded : Recorded state calls) (hlossless : Lossless stats state)
    (htakes : TakesAll bufferSize state round) (heof : EofIsEnd bufferSize peerSent state round) :
    Preceded .shutdownWrite
      (fun before ↦ .isEof true ∈ calls ++ before ∧ sentBytes (calls ++ before) = peerSent)
      (roundCalls bufferSize round state) := by
  by_cases hmem : .shutdownWrite ∈ roundCalls bufferSize round state
  · obtain ⟨hruns, hopen, hend⟩ := shutdownWrite_mem_roundCalls hmem
    have hdata : toClient bufferSize state round = readChannel bufferSize round :=
      if_pos ⟨hruns, hopen⟩
    have hsent : sentBytes (deliveryCalls (readChannel bufferSize round) round.sendResult) =
        readChannel bufferSize round := by
      rw [sentBytes_deliveryCalls, ← hdata, List.take_of_length_le htakes.1]
    have hcalls : channelCalls bufferSize round state =
        deliveryCalls (readChannel bufferSize round) round.sendResult ++
          [.isEof true, .shutdownWrite] := by
      rw [channelCalls, hopen, hend]
      rfl
    have hne : PumpCall.isEof true ≠ .shutdownWrite := nofun
    rw [(pumpRound_of_runs hruns).2, hcalls, preceded_append, preceded_append,
      preceded_cons_of_ne hne, preceded_singleton]
    refine ⟨⟨preceded_of_notMem fun h ↦ ?_, ?_, ?_⟩, preceded_of_notMem fun h ↦ ?_⟩
    · obtain ⟨-, h | h⟩ := mem_deliveryCalls.mp h <;> exact nomatch h
    · simp
    · rw [← heof hruns hopen hend, ← hlossless.clientAccepted, ← hrecorded.sent, sentBytes_append,
        sentBytes_append, hsent]
      exact congrArg _ (List.append_nil _)
    · exact nomatch (clientCalls_safe h).2.1
  · exact preceded_of_notMem hmem

/-- What is open and has data is used, whatever became of the other direction. -/
theorem roundCalls_goOn (hruns : Runs state round) :
    (state.channelEof = false → readChannel bufferSize round ≠ [] →
      .send (readChannel bufferSize round) round.sendResult ∈
        roundCalls bufferSize round state) ∧
    (state.clientEof = false → round.pollIn = true → round.clientData.take bufferSize ≠ [] →
      .writeAll (round.clientData.take bufferSize) ∈ roundCalls bufferSize round state) := by
  rw [(pumpRound_of_runs hruns).2]
  refine ⟨fun hopen hdata ↦ ?_, fun hopen hpoll hdata ↦ ?_⟩
  · exact List.mem_append_left _ (mem_channelCalls.mpr
      ⟨hopen, .inl (mem_deliveryCalls.mpr ⟨hdata, .inr rfl⟩)⟩)
  · have hclient := (channelTurn_moves bufferSize round state).2.2
    exact List.mem_append_right _ (mem_clientCalls.mpr
      ⟨hclient.trans hopen, hpoll, .inr (.inl ⟨hdata, rfl⟩)⟩)

end Recorded

/-! ### Runs of the pump -/

section Runs

variable {bufferSize : ℕ} {stats : ForwardStats}

theorem pump_concat (served : List Round) (round : Round) :
    pump bufferSize stats (served ++ [round]) =
      (pumpRound bufferSize round (pump bufferSize stats served)).2 :=
  stateAfter_append (pumpRound bufferSize) served [round] _

theorem pumpCalls_concat (served : List Round) (round : Round) :
    pumpCalls bufferSize stats (served ++ [round]) = pumpCalls bufferSize stats served ++
      roundCalls bufferSize round (pump bufferSize stats served) :=
  eventsOf_concat (pumpRound bufferSize) (roundCalls bufferSize) served round _

/-- The calls tell the state after every run. -/
theorem pump_recorded (served : List Round) :
    Recorded (pump bufferSize stats served) (pumpCalls bufferSize stats served) :=
  invariant_of_events (fun _ _ _ h _ ↦ recorded_pumpRound h)
    (allowed_forall_iff.mpr fun _ _ ↦ trivial) (recorded_pumpStart bufferSize stats)
    List.prefix_rfl

/-- The socket is closed once the loop was left, and only then. -/
theorem count_closeSocket (served : List Round) :
    (pumpCalls bufferSize stats served).count .closeSocket =
      if (pump bufferSize stats served).done then 1 else 0 := by
  have hrecorded : Recorded (pump bufferSize stats served) _ := pump_recorded served
  cases hdone : (pump bufferSize stats served).done with
  | false => exact List.count_eq_zero_of_not_mem (hrecorded.running hdone).2
  | true =>
    obtain ⟨before, hcalls⟩ := hrecorded.closed hdone
    have hordered := hrecorded.ordered
    rw [hcalls] at hordered ⊢
    have hnone : .closeSocket ∉ before := fun hmem ↦
      ((List.pairwise_append.mp hordered).2.2 _ hmem _ List.mem_cons_self).closed rfl
    rw [List.count_append, List.count_eq_zero_of_not_mem hnone]
    rfl

theorem channelTurn_counters (bufferSize : ℕ) (round : Round) (state : PumpState) :
    (channelTurn bufferSize round state).stats.connections = state.stats.connections ∧
      (channelTurn bufferSize round state).stats.rejected = state.stats.rejected := by
  unfold channelTurn
  dsimp only
  split_ifs <;> exact ⟨rfl, rfl⟩

theorem clientTurn_counters (bufferSize : ℕ) (round : Round) (state : PumpState) :
    (clientTurn bufferSize round state).stats.connections = state.stats.connections ∧
      (clientTurn bufferSize round state).stats.rejected = state.stats.rejected := by
  unfold clientTurn
  dsimp only
  split_ifs <;> exact ⟨rfl, rfl⟩

/-- The pump counts bytes only. -/
theorem pump_counters (rounds : List Round) :
    (pump bufferSize stats rounds).stats.connections = stats.connections ∧
      (pump bufferSize stats rounds).stats.rejected = stats.rejected := by
  have hstep : ∀ round, Keeps (fun state : PumpState ↦
      state.stats.connections = stats.connections ∧ state.stats.rejected = stats.rejected)
      (pumpRound bufferSize round) := by
    intro round state h
    obtain ⟨hconnections, hrejected⟩ := channelTurn_counters bufferSize round state
    obtain ⟨hconnections', hrejected'⟩ := clientTurn_counters bufferSize round
      (channelTurn bufferSize round state)
    unfold pumpRound
    split_ifs
    · exact h
    · exact h
    · exact ⟨hconnections'.trans (hconnections.trans h.1),
        hrejected'.trans (hrejected.trans h.2)⟩
  exact invariant_of_keeps hstep rounds ⟨rfl, rfl⟩

/-- Why the loop was left. -/
theorem pump_done {served : List Round} (h : (pump bufferSize stats served).done = true) :
    (∃ round ∈ served, round.stopRequested = true) ∨
      (pump bufferSize stats served).channelEof = true ∧
        (pump bufferSize stats served).clientEof = true := by
  induction served using List.reverseRecOn with
  | nil => cases h
  | append_singleton served round ih =>
    rw [pump_concat] at h ⊢
    by_cases hruns : Runs (pump bufferSize stats served) round
    · rw [(pumpRound_of_runs hruns).1, (clientTurn_flags _ _ _).2.1,
        (channelTurn_flags _ _ _).2, hruns.1] at h
      cases h
    · by_cases hdone : (pump bufferSize stats served).done = true
      · rw [pumpRound, if_pos hdone]
        refine (ih hdone).imp_left ?_
        rintro ⟨other, hother, hstop⟩
        exact ⟨other, List.mem_append_left _ hother, hstop⟩
      · by_cases hstop : round.stopRequested = true
        · exact .inl ⟨round, by simp, hstop⟩
        · have hends : (pump bufferSize stats served).clientEof = true ∧
              (pump bufferSize stats served).channelEof = true := by
            by_contra hopen
            exact hruns ⟨by simpa using hdone, by simpa using hstop, hopen⟩
          rw [pumpRound, if_neg hdone, if_pos (by simp [hends])]
          exact .inr hends.symm

/-- A pump that nobody asks to stop runs as long as a direction has not ended. -/
theorem runs_of_open {served : List Round} {round : Round}
    (hstop : ∀ other ∈ served ++ [round], other.stopRequested = false)
    (hopen : ¬ ((pump bufferSize stats served).channelEof = true ∧
      (pump bufferSize stats served).clientEof = true)) :
    Runs (pump bufferSize stats served) round := by
  have hnone : ¬ ∃ other ∈ served, other.stopRequested = true := fun ⟨other, hother, htrue⟩ ↦
    Bool.false_ne_true ((hstop other (List.mem_append_left _ hother)).symm.trans htrue)
  refine ⟨?_, hstop round (by simp), fun h ↦ hopen h.symm⟩
  by_contra hdone
  exact (pump_done (by simpa using hdone)).elim hnone hopen

end Runs

/-- In every schedule in which all that is sent and written is taken, and the channel is at its
end only behind the last byte of the peer, the calls of the pump are a half-close. -/
theorem pump_halfCloses (bufferSize : ℕ) (stats : ForwardStats) (peerSent : Bytes)
    (rounds : List Round)
    (h : Allowed (pumpRound bufferSize) (fun state round ↦ TakesAll bufferSize state round ∧
      EofIsEnd bufferSize peerSent state round) rounds (pumpStart bufferSize stats)) :
    HalfCloses bufferSize stats peerSent rounds where
  ordered := (pump_recorded rounds).ordered
  shutdown := by
    have hstep : ∀ round state calls,
        (Recorded state calls ∧ Lossless stats state) ∧ Preceded .shutdownWrite
          (fun before ↦ .isEof true ∈ before ∧ sentBytes before = peerSent) calls →
        TakesAll bufferSize state round ∧ EofIsEnd bufferSize peerSent state round →
        (Recorded (pumpRound bufferSize round state).2
            (calls ++ roundCalls bufferSize round state) ∧
          Lossless stats (pumpRound bufferSize round state).2) ∧ Preceded .shutdownWrite
          (fun before ↦ .isEof true ∈ before ∧ sentBytes before = peerSent)
            (calls ++ roundCalls bufferSize round state) := by
      intro round state calls ⟨⟨hrecorded, hlossless⟩, hbefore⟩ ⟨htakes, heof⟩
      refine ⟨⟨recorded_pumpRound hrecorded,
        lossless_pumpRound bufferSize stats round state ⟨hlossless, htakes⟩⟩, ?_⟩
      exact preceded_append.mpr
        ⟨hbefore, shutdown_roundCalls hrecorded hlossless htakes heof⟩
    exact (invariant_of_events hstep h ⟨⟨recorded_pumpStart bufferSize stats, rfl, rfl, rfl, rfl⟩,
      preceded_of_notMem List.not_mem_nil⟩ List.prefix_rfl).2
  sendEof := (pump_recorded rounds).endAfterRecv
  goesOn served round _ hstop := by
    have hrecorded : Recorded (pump bufferSize stats served) _ := pump_recorded served
    refine ⟨_, pumpCalls_concat served round, fun hmem hdata ↦ ?_, fun hmem hpoll hdata ↦ ?_⟩
    · have hopen : ¬ (pump bufferSize stats served).channelEof = true := fun h ↦
        hmem (hrecorded.shutdown.mpr h)
      have hruns := runs_of_open hstop fun h ↦ hopen h.1
      exact (roundCalls_goOn hruns).1 (by simpa using hopen) hdata
    · have hopen : ¬ (pump bufferSize stats served).clientEof = true := fun h ↦
        hmem (hrecorded.sendEof.mpr h)
      have hruns := runs_of_open hstop fun h ↦ hopen h.2
      exact (roundCalls_goOn hruns).2 (by simpa using hopen) hpoll hdata
  exits served round _ hend := by
    have hrecorded : Recorded (pump bufferSize stats served) _ := pump_recorded served
    refine (pump_recorded (served ++ [round])).closed ?_
    rw [hrecorded.shutdown, hrecorded.sendEof] at hend
    rw [pump_concat, pumpRound]
    split_ifs with hdone hleaves
    · exact hdone
    · rfl
    · refine absurd ?_ hleaves
      rcases hend with hstop | ⟨hchannel, hclient⟩
      · simp [hstop]
      · simp [hchannel, hclient]
  stays served _ hclosed := by
    have hrecorded : Recorded (pump bufferSize stats served) _ := pump_recorded served
    have hdone : (pump bufferSize stats served).done = true := by
      by_contra hrunning
      obtain ⟨hchannel, hsocket⟩ := hrecorded.running (by simpa using hrunning)
      exact hclosed.elim hchannel hsocket
    rw [hrecorded.shutdown, hrecorded.sendEof]
    exact pump_done hdone

/-- The channel delivers two bytes and its end while the client still sends one. -/
def channelEndsFirst : List Round :=
  [{ available := .ok 2, channelData := .ok [0x61, 0x62], sendResult := some 2
     channelAtEof := true },
    { pollIn := true, clientData := [0x63] },
    { pollIn := true },
    {}]

theorem channelEndsFirst_halfCloses : HalfCloses 4 {} [0x61, 0x62] channelEndsFirst :=
  pump_halfCloses 4 {} [0x61, 0x62] channelEndsFirst
    ⟨⟨⟨by decide, rfl⟩, fun _ _ _ ↦ rfl⟩, ⟨⟨by decide, rfl⟩, fun _ h _ ↦ nomatch h⟩,
      ⟨⟨by decide, rfl⟩, fun _ h _ ↦ nomatch h⟩, ⟨⟨by decide, rfl⟩, fun _ h _ ↦ nomatch h⟩, trivial⟩

example : pumpCalls 4 {} channelEndsFirst =
    [.readChannel [0x61, 0x62], .send [0x61, 0x62] (some 2), .isEof true, .shutdownWrite,
      .recv [0x63], .writeAll [0x63], .recv [], .sendEof, .closeChannel, .closeSocket] := by
  decide

end LibSshpp.Forwarding
