import LibSshpp.Forwarding.HalfClose

/-!
`stop()` on a `BidirectionalPump` and on an `X11Forwarder`, at any point of
`try_run_until_stopped`. The request is a flag that another thread sets: the pump reads it
at its loop condition and clears it when a run begins; the forwarder reads it only between
two connections, and the pump it runs for a connection has a flag of its own.
-/

set_option autoImplicit false
set_option relaxedAutoImplicit false

namespace LibSshpp.Forwarding

open Program

/-! ### Requests to stop -/

/-- What happens to a loop: `stop()` is called, or the loop goes on by a step. -/
inductive LoopEvent (α : Type)
  | stop
  | step (next : α)
  deriving DecidableEq, Repr

section StopHonoured

variable {σ α : Type} {step : LoopEvent α → StateM σ Unit} {accepts moves evaluates : σ → α → Prop}

/-- The event is a step of which the fact holds. -/
def OnStep (fact : σ → α → Prop) (state : σ) : LoopEvent α → Prop
  | .stop => False
  | .step next => fact state next

/-- After a call of `stop()` no connection is accepted, and a step that moves bytes belongs
to the iteration that was in progress: no loop condition was evaluated in between. -/
def StopHonoured (step : LoopEvent α → StateM σ Unit) (accepts moves evaluates : σ → α → Prop)
    (events : List (LoopEvent α)) (start : σ) : Prop :=
  ∀ before after next, before ++ .stop :: (after ++ [.step next]) <+: events →
    let stopped := stateAfter step (before ++ [.stop]) start
    ¬ accepts (stateAfter step after stopped) next ∧
      (moves (stateAfter step after stopped) next →
        Allowed step (fun state event ↦ ¬ OnStep evaluates state event) after stopped)

/-- Where the evaluation of a loop condition leads to states that move nothing, bytes move
only as long as none is evaluated. -/
theorem allowed_of_moves {allows : σ → LoopEvent α → Prop} {stopped quiet : σ → Prop}
    (hstopped : ∀ event, Triple (fun state ↦ stopped state ∧ allows state event)
      (step event) fun _ ↦ stopped)
    (hevaluates : ∀ event,
      Triple (fun state ↦ stopped state ∧ allows state event ∧ OnStep evaluates state event)
        (step event) fun _ ↦ quiet)
    (hquiet : ∀ event, Triple (fun state ↦ quiet state ∧ allows state event)
      (step event) fun _ ↦ quiet)
    (hmoves : ∀ state next, quiet state → ¬ moves state next)
    {after : List (LoopEvent α)} {state : σ} (hstate : stopped state)
    (hallowed : Allowed step allows after state) {next : α}
    (hmoved : moves (stateAfter step after state) next) :
    Allowed step (fun state event ↦ ¬ OnStep evaluates state event) after state := by
  induction after generalizing state with
  | nil => trivial
  | cons event after ih =>
    obtain ⟨hallows, hrest⟩ := hallowed
    refine ⟨fun hevaluated ↦ ?_, ih (hstopped event state ⟨hstate, hallows⟩) hrest hmoved⟩
    have hnow : quiet (step event state).2 := hevaluates event state ⟨hstate, hallows, hevaluated⟩
    exact hmoves _ _ (invariant_of_allowed hquiet hrest hnow List.prefix_rfl) hmoved

/-- A request is honoured where it leads to states in which no allowed step accepts, from
which the next evaluation of a loop condition leads to states that move nothing. -/
theorem stopHonoured_of_quiet {allows : σ → LoopEvent α → Prop} {stopped quiet : σ → Prop}
    (hstop : ∀ state, allows state .stop → stopped (step .stop state).2)
    (hstopped : ∀ event, Triple (fun state ↦ stopped state ∧ allows state event)
      (step event) fun _ ↦ stopped)
    (haccepts : ∀ state next, stopped state → allows state (.step next) → ¬ accepts state next)
    (hevaluates : ∀ event,
      Triple (fun state ↦ stopped state ∧ allows state event ∧ OnStep evaluates state event)
        (step event) fun _ ↦ quiet)
    (hquiet : ∀ event, Triple (fun state ↦ quiet state ∧ allows state event)
      (step event) fun _ ↦ quiet)
    (hmoves : ∀ state next, quiet state → ¬ moves state next)
    {events : List (LoopEvent α)} {start : σ} (hallowed : Allowed step allows events start) :
    StopHonoured step accepts moves evaluates events start := by
  rintro before after next ⟨rest, rfl⟩
  rw [List.append_assoc, allowed_append] at hallowed
  obtain ⟨-, hrequest, hrun⟩ := hallowed
  have hcalled : (step .stop (stateAfter step before start)).2 =
      stateAfter step (before ++ [.stop]) start := (stateAfter_append step before [.stop] start).symm
  have hstate := hstop _ hrequest
  rw [hcalled] at hstate hrun
  obtain ⟨hafter, hnext, -⟩ := allowed_append.mp (allowed_append.mp hrun).1
  exact ⟨haccepts _ _ (invariant_of_allowed hstopped hafter hstate List.prefix_rfl) hnext,
    allowed_of_moves hstopped hevaluates hquiet hmoves hstate hafter⟩

end StopHonoured

/-! ### `BidirectionalPump` -/

/-- How far a call of `try_run_until_stopped` is: not made, before its loop condition, in
the body of its loop. -/
inductive Progress
  | outside | atCondition | inBody
  deriving DecidableEq, Repr

/-- The bytes that a call moves. -/
def PumpCall.moved : PumpCall → Bytes
  | .readChannel data => data
  | .send data _ => data
  | .recv data => data
  | .writeAll data => data
  | _ => []

structure BidirectionalPump where
  bufferSize : ℕ := 64 * 1024
  stopRequested : Bool := false
  finished : Bool := false
  progress : Progress := .outside
  pump : PumpState

/-- A step of a pump's run: it begins, evaluates its loop condition, or does the body of
its loop. -/
inductive PumpStep
  | begin
  | condition
  | body (round : Round)

namespace BidirectionalPump

def create (bufferSize : ℕ) : BidirectionalPump where
  bufferSize := bufferSize
  pump := pumpStart bufferSize {}

/-- Whether the loop is left at its condition. -/
def leaves (state : BidirectionalPump) : Bool :=
  state.stopRequested || (state.pump.clientEof && state.pump.channelEof)

/-- `try_run_until_stopped`, a step of it. -/
def tryRunStep (next : PumpStep) (state : BidirectionalPump) : BidirectionalPump :=
  match next, state.progress with
  | .begin, .outside =>
    { state with
      stopRequested := false, progress := .atCondition
      pump := pumpStart state.bufferSize state.pump.stats }
  | .condition, .atCondition =>
    if state.leaves then
      { state with progress := .outside, finished := true, pump := { state.pump with done := true } }
    else { state with progress := .inBody }
  | .body round, .inBody =>
    { state with
      progress := .atCondition
      pump := clientTurn state.bufferSize round (channelTurn state.bufferSize round state.pump) }
  | _, _ => state

/-- The calls of a step on the channel and on the socket. -/
def calls (next : PumpStep) (state : BidirectionalPump) : List PumpCall :=
  match next, state.progress with
  | .condition, .atCondition => if state.leaves then [.closeChannel, .closeSocket] else []
  | .body round, .inBody =>
    channelCalls state.bufferSize round state.pump ++
      clientCalls state.bufferSize round (channelTurn state.bufferSize round state.pump)
  | _, _ => []

def step : LoopEvent PumpStep → StateM BidirectionalPump Unit
  | .stop => fun state ↦ ((), { state with stopRequested := true })
  | .step next => fun state ↦ ((), state.tryRunStep next)

theorem tryRunStep_condition {state : BidirectionalPump}
    (hcondition : state.progress = .atCondition) :
    state.tryRunStep .condition =
        (if state.leaves then
          { state with
            progress := .outside, finished := true, pump := { state.pump with done := true } }
        else { state with progress := .inBody }) ∧
      state.calls .condition = if state.leaves then [.closeChannel, .closeSocket] else [] := by
  rcases state with ⟨bufferSize, stopRequested, finished, progress, pump⟩
  obtain rfl : progress = .atCondition := hcondition
  exact ⟨rfl, rfl⟩

/-- A condition and the body behind it are a round of the pump, with the flag as it was at
the condition. -/
theorem tryRunStep_pumpRound {state : BidirectionalPump} (hcondition : state.progress = .atCondition)
    (hdone : state.pump.done = false) (round : Round) :
    ((state.tryRunStep .condition).tryRunStep (.body round)).pump =
        (pumpRound state.bufferSize { round with stopRequested := state.stopRequested }
          state.pump).2 ∧
      state.calls .condition ++ (state.tryRunStep .condition).calls (.body round) =
        roundCalls state.bufferSize { round with stopRequested := state.stopRequested }
          state.pump := by
  obtain ⟨hstep, hcalls⟩ := tryRunStep_condition hcondition
  have hopen : ¬ state.pump.done = true := by rw [hdone]; exact Bool.false_ne_true
  unfold pumpRound roundCalls
  rw [if_neg hopen, if_neg hopen, hstep, hcalls]
  dsimp only
  by_cases hleaves : state.leaves = true
  · have hround : (state.stopRequested || state.pump.clientEof && state.pump.channelEof) = true :=
      hleaves
    rw [if_pos hleaves, if_pos hleaves, if_pos hround, if_pos hround]
    exact ⟨rfl, rfl⟩
  · have hround : ¬ (state.stopRequested || state.pump.clientEof && state.pump.channelEof) = true :=
      hleaves
    rw [if_neg hleaves, if_neg hleaves, if_neg hround, if_neg hround]
    exact ⟨rfl, rfl⟩

/-- The step moves bytes. -/
def Moves (state : BidirectionalPump) (next : PumpStep) : Prop :=
  ∃ call ∈ state.calls next, call.moved ≠ []

/-- The step evaluates the loop condition. -/
def Evaluates (state : BidirectionalPump) (next : PumpStep) : Prop :=
  next = .condition ∧ state.progress = .atCondition

theorem inBody_of_moves {state : BidirectionalPump} {next : PumpStep} (h : state.Moves next) :
    state.progress = .inBody := by
  obtain ⟨call, hcall, hmoved⟩ := h
  unfold calls at hcall
  split at hcall
  · split_ifs at hcall
    · simp only [List.mem_cons, List.not_mem_nil, or_false] at hcall
      rcases hcall with rfl | rfl <;> exact absurd rfl hmoved
    · exact nomatch hcall
  · assumption
  · exact nomatch hcall

/-- The event after which a request is lost: a run begins, and clears it. -/
def BeginsUnrequested (state : BidirectionalPump) (event : LoopEvent PumpStep) : Prop :=
  event = .step .begin → state.progress = .outside → state.stopRequested = false

theorem stopRequested_step (event : LoopEvent PumpStep) :
    Triple (fun state ↦ state.stopRequested = true ∧ BeginsUnrequested state event) (step event)
      fun _ state ↦ state.stopRequested = true := by
  rintro ⟨bufferSize, stopRequested, finished, progress, pump⟩ ⟨rfl, hbegins⟩
  cases event with
  | stop => rfl
  | step next =>
    cases next with
    | begin =>
      cases progress with
      | outside => exact absurd (hbegins rfl rfl) (by simp)
      | atCondition => rfl
      | inBody => rfl
    | condition => cases progress <;> rfl
    | body round => cases progress <;> rfl

/-- A loop that evaluates its condition after a request is left. -/
theorem outside_of_evaluates (event : LoopEvent PumpStep) :
    Triple (fun state ↦ state.stopRequested = true ∧ OnStep Evaluates state event) (step event)
      fun _ state ↦ state.stopRequested = true ∧ state.progress = .outside := by
  rintro state ⟨hrequested, hevaluates⟩
  cases event with
  | stop => exact hevaluates.elim
  | step next =>
  obtain ⟨rfl, hcondition⟩ := hevaluates
  have hleaves : state.leaves = true := by rw [leaves, hrequested, Bool.true_or]
  show (state.tryRunStep .condition).stopRequested = true ∧
    (state.tryRunStep .condition).progress = .outside
  rw [(tryRunStep_condition hcondition).1, if_pos hleaves]
  exact ⟨hrequested, rfl⟩

/-- And stays outside unless a run begins. -/
theorem outside_step (event : LoopEvent PumpStep) :
    Triple (fun state ↦ (state.stopRequested = true ∧ state.progress = .outside) ∧
        BeginsUnrequested state event) (step event)
      fun _ state ↦ state.stopRequested = true ∧ state.progress = .outside := by
  rintro ⟨bufferSize, stopRequested, finished, progress, pump⟩ ⟨⟨rfl, rfl⟩, hbegins⟩
  cases event with
  | stop => exact ⟨rfl, rfl⟩
  | step next =>
    cases next with
    | begin => exact absurd (hbegins rfl rfl) (by simp)
    | condition => exact ⟨rfl, rfl⟩
    | body round => exact ⟨rfl, rfl⟩

/-- A pump honours a request as long as no run begins behind it. -/
theorem stopHonoured {events : List (LoopEvent PumpStep)} {start : BidirectionalPump}
    (h : Allowed step BeginsUnrequested events start) :
    StopHonoured step (fun _ _ ↦ False) Moves Evaluates events start := by
  refine stopHonoured_of_quiet (fun state _ ↦ rfl) stopRequested_step (fun _ _ _ _ h ↦ h)
    (fun event state h ↦ outside_of_evaluates event state ⟨h.1, h.2.2⟩) outside_step ?_ h
  rintro state next ⟨-, houtside⟩ hmoves
  rw [inBody_of_moves hmoves] at houtside
  exact nomatch houtside

end BidirectionalPump

/-! ### `X11Forwarder` -/

/-- How far a call of `try_run_until_stopped` of a forwarder is. -/
inductive X11Phase
  | outside
  | atCondition
  | accepting
  | connecting
  | pumping (pump : BidirectionalPump)

structure X11Forwarder where
  singleConnection : Bool := false
  stopRequested : Bool := false
  phase : X11Phase := .outside

/-- A step of a forwarder's run: it begins, with the target that the options or the
display give; evaluates its loop condition; `try_accept` returns, with a channel or without;
`connect_target` returns; or the pump of the connection goes on. -/
inductive X11Step
  | begin (target : Result Unit)
  | condition
  | accept (accepted : Bool)
  | connect (connected : Bool)
  | pump (next : PumpStep)

namespace X11Forwarder

/-- `try_run_until_stopped`, a step of it. -/
def tryRunStep (next : X11Step) (state : X11Forwarder) : X11Forwarder :=
  match next, state.phase with
  | .begin (.ok ()), .outside => { state with phase := .atCondition }
  | .condition, .atCondition =>
    { state with phase := if state.stopRequested then .outside else .accepting }
  | .accept accepted, .accepting =>
    { state with phase := if accepted then .connecting else .atCondition }
  | .connect connected, .connecting =>
    { state with
      phase := if connected then .pumping (.create (64 * 1024)) else .atCondition }
  | .pump next, .pumping pump =>
    let pump := pump.tryRunStep next
    if pump.finished then
      { state with phase := if state.singleConnection then .outside else .atCondition }
    else { state with phase := .pumping pump }
  | _, _ => state

def step : LoopEvent X11Step → StateM X11Forwarder Unit
  | .stop => fun state ↦ ((), { state with stopRequested := true })
  | .step next => fun state ↦ ((), state.tryRunStep next)

/-- The step brings a new connection. -/
def Accepts (state : X11Forwarder) (next : X11Step) : Prop :=
  next = .accept true ∧ state.phase = .accepting

/-- The step moves bytes. -/
def Moves (state : X11Forwarder) : X11Step → Prop
  | .pump next => ∃ pump, state.phase = .pumping pump ∧ pump.Moves next
  | _ => False

/-- The step evaluates a loop condition, the forwarder's or its pump's. -/
def Evaluates (state : X11Forwarder) : X11Step → Prop
  | .condition => state.phase = .atCondition
  | .pump next => ∃ pump, state.phase = .pumping pump ∧ pump.Evaluates next
  | _ => False

/-- The forwarder is not serving a connection, nor waiting for one. -/
def Between (state : X11Forwarder) : Prop :=
  state.phase = .outside ∨ state.phase = .atCondition

/-- A connection comes in, or the pump of one goes on at its loop condition. -/
def GoesOn (state : X11Forwarder) : X11Step → Prop
  | .accept accepted => accepted = true ∧ state.phase = .accepting
  | .pump next => ∃ pump, state.phase = .pumping pump ∧ pump.Evaluates next ∧ pump.leaves = false
  | _ => False

/-- The forwarder does not go on while it is asked to stop. -/
def HeedsRequest (state : X11Forwarder) (event : LoopEvent X11Step) : Prop :=
  state.stopRequested = true → ¬ OnStep GoesOn state event

@[simp] theorem stopRequested_tryRunStep (next : X11Step) (state : X11Forwarder) :
    (state.tryRunStep next).stopRequested = state.stopRequested := by
  unfold tryRunStep
  dsimp only
  split
  · rfl
  · rfl
  · rfl
  · rfl
  · split <;> rfl
  · rfl

/-- A request to a forwarder is never cleared. -/
theorem stopRequested_step (event : LoopEvent X11Step) :
    Triple (fun state ↦ state.stopRequested = true) (step event)
      fun _ state ↦ state.stopRequested = true := by
  intro state hrequested
  cases event with
  | stop => rfl
  | step next => exact (stopRequested_tryRunStep next state).trans hrequested

/-- A loop that evaluates its condition after a request, the forwarder's or its pump's, is
left if the request is heeded. -/
theorem between_of_evaluates (event : LoopEvent X11Step) :
    Triple (fun state ↦ state.stopRequested = true ∧ HeedsRequest state event ∧
        OnStep Evaluates state event) (step event)
      fun _ state ↦ state.stopRequested = true ∧ state.Between := by
  rintro state ⟨hrequested, hheeds, hevaluates⟩
  refine ⟨stopRequested_step event state hrequested, ?_⟩
  cases event with
  | stop => exact hevaluates.elim
  | step next =>
  have hgoesOn := hheeds hrequested
  rcases state with ⟨singleConnection, stopRequested, phase⟩
  obtain rfl : stopRequested = true := hrequested
  cases next with
  | condition =>
    obtain rfl : phase = .atCondition := hevaluates
    exact .inl rfl
  | pump next =>
    obtain ⟨pump, rfl, rfl, hcondition⟩ := hevaluates
    have hleaves : pump.leaves = true := by
      by_contra hopen
      exact hgoesOn ⟨pump, rfl, ⟨rfl, hcondition⟩, Bool.not_eq_true _ ▸ hopen⟩
    have hfinished : (pump.tryRunStep .condition).finished = true := by
      rw [(BidirectionalPump.tryRunStep_condition hcondition).1, if_pos hleaves]
    show Between (if _ then _ else _)
    rw [if_pos hfinished]
    cases singleConnection with
    | true => exact .inl rfl
    | false => exact .inr rfl
  | _ => exact hevaluates.elim

/-- A forwarder that was asked to stop between two connections stays there. -/
theorem between_step (event : LoopEvent X11Step) :
    Triple (fun state ↦ state.stopRequested = true ∧ state.Between) (step event)
      fun _ state ↦ state.stopRequested = true ∧ state.Between := by
  rintro ⟨singleConnection, stopRequested, phase⟩ ⟨rfl, houtside | hcondition⟩
  · obtain rfl : phase = .outside := houtside
    match event with
    | .step (.begin (.ok ())) => exact ⟨rfl, .inr rfl⟩
    | .stop | .step (.begin (.error _)) | .step .condition | .step (.accept _)
    | .step (.connect _) | .step (.pump _) => exact ⟨rfl, .inl rfl⟩
  · obtain rfl : phase = .atCondition := hcondition
    match event with
    | .step .condition => exact ⟨rfl, .inl rfl⟩
    | .stop | .step (.begin (.ok ())) | .step (.begin (.error _)) | .step (.accept _)
    | .step (.connect _) | .step (.pump _) => exact ⟨rfl, .inr rfl⟩

theorem Between.not_moves {state : X11Forwarder} (h : state.Between) (next : X11Step) :
    ¬ state.Moves next := by
  intro hmoves
  cases next with
  | pump next =>
    obtain ⟨pump, hpumping, -⟩ := hmoves
    rcases h with h | h <;> exact nomatch h.symm.trans hpumping
  | _ => exact hmoves

/-- A forwarder honours a request as long as it does not go on. -/
theorem stopHonoured {events : List (LoopEvent X11Step)} {start : X11Forwarder}
    (h : Allowed step HeedsRequest events start) :
    StopHonoured step Accepts Moves Evaluates events start := by
  refine stopHonoured_of_quiet (fun _ _ ↦ rfl)
    (fun event state h ↦ stopRequested_step event state h.1) ?_ between_of_evaluates
    (fun event state h ↦ between_step event state h.1) (fun _ next h ↦ h.2.not_moves next) h
  rintro state next hrequested hheeds ⟨rfl, haccepting⟩
  exact hheeds hrequested ⟨rfl, haccepting⟩

end X11Forwarder

/-! ### Both -/

/-- In every run of a new pump that begins no run with a request pending, and in every run
of a new forwarder that does not go on while it is asked to stop, a request is honoured. -/
theorem stop_honoured_of_allowed (bufferSize : ℕ) (pumpEvents : List (LoopEvent PumpStep))
    (singleConnection : Bool) (events : List (LoopEvent X11Step)) :
    (Allowed BidirectionalPump.step BidirectionalPump.BeginsUnrequested pumpEvents
        (.create bufferSize) →
      StopHonoured BidirectionalPump.step (fun _ _ ↦ False) BidirectionalPump.Moves
        BidirectionalPump.Evaluates pumpEvents (.create bufferSize)) ∧
    (Allowed X11Forwarder.step X11Forwarder.HeedsRequest events { singleConnection } →
      StopHonoured X11Forwarder.step X11Forwarder.Accepts X11Forwarder.Moves
        X11Forwarder.Evaluates events { singleConnection }) :=
  ⟨BidirectionalPump.stopHonoured, X11Forwarder.stopHonoured⟩

/-- A round in which the channel has a byte for the client. -/
def byteRound : Round where
  available := .ok 1
  channelData := .ok [0x61]
  sendResult := some 1

/-- A run of a pump that is asked to stop in the middle of its first iteration. -/
def pumpStopped : List (LoopEvent PumpStep) :=
  [.step .begin, .step .condition, .stop, .step (.body byteRound), .step .condition]

/-- A run of a forwarder that is asked to stop before anything connects. -/
def x11Stopped : List (LoopEvent X11Step) :=
  [.step (.begin (.ok ())), .step .condition, .step (.accept false), .stop, .step .condition]

theorem stop_honoured_of_allowed_stopped :
    StopHonoured BidirectionalPump.step (fun _ _ ↦ False) BidirectionalPump.Moves
        BidirectionalPump.Evaluates pumpStopped (.create 4) ∧
      StopHonoured X11Forwarder.step X11Forwarder.Accepts X11Forwarder.Moves
        X11Forwarder.Evaluates x11Stopped {} := by
  obtain ⟨hpump, hforwarder⟩ := stop_honoured_of_allowed 4 pumpStopped false x11Stopped
  constructor
  · exact hpump ⟨fun _ _ ↦ rfl, nofun, nofun, nofun, nofun, trivial⟩
  · exact hforwarder ⟨nofun, nofun, nofun, nofun, fun _ ↦ id, trivial⟩

/-- The pump of a connection, asked to stop before its run begins. -/
def requestedEarly : List (LoopEvent PumpStep) :=
  [.stop, .step .begin, .step .condition, .step (.body byteRound)]

/-- A forwarder asked to stop while a connection comes in. -/
def requestedAccepting : List (LoopEvent X11Step) :=
  [.step (.begin (.ok ())), .step .condition, .stop, .step (.accept true)]

/-- A forwarder asked to stop while it serves a connection. -/
def requestedPumping : List (LoopEvent X11Step) :=
  [.step (.begin (.ok ())), .step .condition, .step (.accept true), .step (.connect true),
    .step (.pump .begin), .stop, .step (.pump .condition), .step (.pump (.body byteRound))]

/-- A request before a pump's run is lost, one to a forwarder that accepts does not keep it
from accepting, and one to a forwarder that serves a connection does not reach its pump. -/
theorem stop_not_honoured :
    ¬ StopHonoured BidirectionalPump.step (fun _ _ ↦ False) BidirectionalPump.Moves
        BidirectionalPump.Evaluates requestedEarly (.create 4) ∧
      ¬ StopHonoured X11Forwarder.step X11Forwarder.Accepts X11Forwarder.Moves
        X11Forwarder.Evaluates requestedAccepting {} ∧
      ¬ StopHonoured X11Forwarder.step X11Forwarder.Accepts X11Forwarder.Moves
        X11Forwarder.Evaluates requestedPumping {} := by
  have hbyte : ∃ call ∈ [PumpCall.readChannel [0x61], .send [0x61] (some 1), .isEof false],
      call.moved ≠ [] := ⟨_, List.mem_cons_self, List.cons_ne_nil _ _⟩
  refine ⟨fun h ↦ ?_, fun h ↦ ?_, fun h ↦ ?_⟩
  · obtain ⟨-, hmoves⟩ := h [] [.step .begin, .step .condition] _ List.prefix_rfl
    exact (hmoves hbyte).2.1 ⟨rfl, rfl⟩
  · obtain ⟨haccepts, -⟩ := h [.step (.begin (.ok ())), .step .condition] [] _ List.prefix_rfl
    exact haccepts ⟨rfl, rfl⟩
  · obtain ⟨-, hmoves⟩ := h [.step (.begin (.ok ())), .step .condition, .step (.accept true),
      .step (.connect true), .step (.pump .begin)] [.step (.pump .condition)] _ List.prefix_rfl
    exact (hmoves ⟨_, rfl, hbyte⟩).1 ⟨_, rfl, rfl, rfl⟩

end LibSshpp.Forwarding
