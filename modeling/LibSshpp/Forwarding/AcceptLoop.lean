import LibSshpp.Foundation.Error
import LibSshpp.Program.StateTriple

/-!
The listening socket of `LocalForward` and `SocksProxy` through starts and stops. Calls
follow one another and every accept loop they enter goes on a step at a time in
between: the loop on the object's thread, or one that `try_run_until_stopped` runs on a
caller's. `running_` is set by the loop and not by the call that starts it, and a
descriptor is closed by the destructor alone.
-/

set_option autoImplicit false
set_option relaxedAutoImplicit false

namespace LibSshpp.Forwarding.AcceptLoop

open Program

/-- The two classes, which have these functions in common. -/
inductive Owner
  | localForward
  | socksProxy
  deriving DecidableEq, Repr

def Owner.name : Owner → String
  | .localForward => "LocalForward"
  | .socksProxy => "SocksProxy"

/-- A bound socket: its number, and the address it holds. -/
structure Descriptor where
  fd : ℕ
  address : ℕ
  deriving DecidableEq, Repr

/-- What becomes of one address of `getaddrinfo`. A granted one is bound unless a socket
of the object holds it. -/
inductive Candidate
  | noSocket
  | socket (descriptor : Descriptor) (granted : Bool)
  deriving DecidableEq, Repr

/-- What the system answers to one `bind_listener`. -/
structure Answers where
  gaiText : String := ""
  addresses : List Candidate := []
  errnoText : String := ""
  listens : Bool := true
  /-- `getsockname`: whether the family is `AF_INET`, and the port -/
  sockname : Option (Bool × UInt16) := none
  deriving DecidableEq, Repr

/-- The loop over the addresses. Port 0 stands for one that no socket has. -/
def firstBound (port : UInt16) (opened : List Descriptor) : List Candidate → Option Descriptor
  | [] => none
  | .noSocket :: rest => firstBound port opened rest
  | .socket descriptor granted :: rest =>
    if granted && (port == 0 || opened.all (·.address != descriptor.address)) then
      some descriptor
    else firstBound port opened rest

/-- The sockets that `bind_listener` makes, while `opened` are open; the ones it closes
again are left out. -/
def bindSocket (port : UInt16) (opened : List Descriptor) (answers : Answers) :
    Result Descriptor :=
  if answers.addresses = [] then
    .error { code := .ssh .forwardingFailed, message := answers.gaiText, operation := "getaddrinfo" }
  else
    match firstBound port opened answers.addresses with
    | none =>
      .error { code := .ssh .forwardingFailed, message := answers.errnoText, operation := "bind" }
    | some descriptor =>
      if answers.listens then .ok descriptor
      else
        .error
          { code := .ssh .forwardingFailed, message := answers.errnoText, operation := "listen" }

/-- How far a call of `accept_loop` is: before it sets `running_`, in the loop, before it
clears `running_`, returned. -/
inductive Phase
  | entering
  | looping
  | leaving
  | returned
  deriving DecidableEq, Repr

/-- Who waits for the thread. -/
inductive Waiter
  | stop
  | destructor
  deriving DecidableEq, Repr

/-- The object and its accept loops. `thread` is the loop that `thread_` runs, while it is
joinable. `opened` and `started` are no members: the listening descriptors that are
open, and whether a start has succeeded that no `stop` followed. -/
structure State where
  listenFd : Option Descriptor := none
  boundPort : UInt16 := 0
  running : Bool := false
  stopRequested : Bool := false
  thread : Option ℕ := none
  loops : List Phase := []
  waiting : Option Waiter := none
  terminated : Bool := false
  destroyed : Bool := false
  opened : List Descriptor := []
  started : Bool := false
  deriving DecidableEq, Repr

namespace State

/-- The port that `bind_listener` reads back; a `SocksProxy` reads no IPv6 one. -/
def portAfter (state : State) : Owner → Option (Bool × UInt16) → UInt16
  | .localForward, some (_, port) => port
  | .socksProxy, some (true, port) => port
  | _, _ => state.boundPort

def bindListener (state : State) (owner : Owner) (port : UInt16) (answers : Answers) :
    Result Unit × State :=
  match bindSocket port state.opened answers with
  | .error error => (.error error, state)
  | .ok descriptor =>
    (.ok (), { state with
      boundPort := state.portAfter owner answers.sockname
      listenFd := some descriptor
      opened := state.opened ++ [descriptor] })

/-- A new call of `accept_loop`, after `stop_requested_` is cleared. -/
def enterLoop (state : State) : State :=
  { state with stopRequested := false, loops := state.loops ++ [.entering], started := true }

def alreadyConnected (owner : Owner) (call : String) : ErrorInfo where
  code := .ssh .alreadyConnected
  operation := owner.name ++ "::" ++ call

/-- The thread is started before it is assigned, and the assignment to a joinable one
is `std::terminate`. -/
def tryStart (state : State) (owner : Owner) (port : UInt16) (answers : Answers) :
    Result Unit × State :=
  if state.running then (.error (alreadyConnected owner "try_start"), state)
  else
    match state.bindListener owner port answers with
    | (.error error, after) => (.error error, after)
    | (.ok (), after) =>
      if after.thread.isSome then (.ok (), { after.enterLoop with terminated := true })
      else (.ok (), { after.enterLoop with thread := some after.loops.length })

/-- `try_run_until_stopped` as far as its accept loop, with the error it returns if it
does not get there. -/
def tryRunUntilStopped (state : State) (owner : Owner) (port : UInt16) (answers : Answers) :
    Result Unit × State :=
  if state.running then (.error (alreadyConnected owner "try_run_until_stopped"), state)
  else if state.listenFd.isSome then (.ok (), state.enterLoop)
  else
    match state.bindListener owner port answers with
    | (.error error, after) => (.error error, after)
    | (.ok (), after) => (.ok (), after.enterLoop)

/-- `stop` as far as its join. -/
def stop (state : State) : State :=
  { state with
    stopRequested := true
    started := false
    waiting := if state.thread.isSome then some .stop else none }

/-- The end of the destructor. -/
def close (state : State) : State :=
  { state with
    opened := match state.listenFd with
      | some descriptor => state.opened.erase descriptor
      | none => state.opened
    destroyed := true }

/-- The destructor as far as its join. -/
def destroy (state : State) : State :=
  if state.thread.isSome then { state.stop with waiting := some .destructor }
  else state.stop.close

/-- The end of a join, once the thread has returned. -/
def join (state : State) : State :=
  match state.waiting, state.thread with
  | some waiter, some index =>
    if state.loops[index]? = some .returned then
      match waiter with
      | .stop => { state with thread := none, waiting := none }
      | .destructor => State.close { state with thread := none, waiting := none }
    else state
  | _, _ => state

/-- One step of an accept loop. A turn of the loop waits for a connection and serves it,
which changes nothing here. -/
def loopStep (state : State) (index : ℕ) : State :=
  match state.loops[index]? with
  | some .entering => { state with running := true, loops := state.loops.set index .looping }
  | some .looping =>
    if state.stopRequested then { state with loops := state.loops.set index .leaving } else state
  | some .leaving => { state with running := false, loops := state.loops.set index .returned }
  | _ => state

/-- The next call may be made. -/
def ready (state : State) : Bool :=
  !state.terminated && !state.destroyed && state.waiting.isNone

end State

/-- A call, or a step of the thread or of a loop. -/
inductive Event
  | tryStart (answers : Answers)
  | tryRunUntilStopped (answers : Answers)
  | stop
  | destroy
  | join
  | loop (index : ℕ)
  deriving DecidableEq, Repr

/-- Events that cannot occur in the state change nothing. -/
def Event.apply (owner : Owner) (port : UInt16) (state : State) : Event → State
  | .tryStart answers => if state.ready then (state.tryStart owner port answers).2 else state
  | .tryRunUntilStopped answers =>
    if state.ready then (state.tryRunUntilStopped owner port answers).2 else state
  | .stop => if state.ready then state.stop else state
  | .destroy => if state.ready then state.destroy else state
  | .join => if state.terminated || state.destroyed then state else state.join
  | .loop index => if state.terminated || state.destroyed then state else state.loopStep index

def step (owner : Owner) (port : UInt16) (event : Event) : StateM State Unit :=
  fun state ↦ ((), event.apply owner port state)

/-! ### What the calls should do -/

/-- The listening descriptors of the object: one at most, and none after its end. -/
def Tidy (state : State) : Prop :=
  state.opened.length ≤ 1 ∧ (state.destroyed = true → state.opened = [])

/-- A `try_start` is refused while a start has not been stopped, and after a `stop` it
succeeds if the system has a socket for an object that has none. -/
def Answered (owner : Owner) (port : UInt16) (state : State) : Event → Prop
  | .tryStart answers => state.ready = true →
    (state.started = true → state.tryStart owner port answers =
      (.error (State.alreadyConnected owner "try_start"), state)) ∧
    (state.stopRequested = true → (bindSocket port [] answers).isOk = true →
      (state.tryStart owner port answers).1 = .ok ())
  | _ => True

/-- The event is answered as it should be, and no descriptor is left behind. -/
def Proper (owner : Owner) (port : UInt16) (state : State) (event : Event) : Prop :=
  Answered owner port state event ∧ Tidy (step owner port event state).2

/-- A `try_start` of an object that has a listening descriptor: before the loop of the
last start has set `running_`, or after a `stop` if the system has a socket to give. -/
def restarts (port : UInt16) (state : State) : Event → Bool
  | .tryStart answers =>
    state.ready && state.listenFd.isSome &&
      if state.started then !state.running else (bindSocket port [] answers).isOk
  | _ => false

/-! ### The calls -/

/-- An object without a listening descriptor has no accept loop and has not been
started, and the `stop_requested_` of one that has a descriptor tells whether it was
stopped. -/
structure Orderly (state : State) : Prop where
  opened : state.opened = if state.destroyed then [] else state.listenFd.toList
  idle : state.listenFd = none →
    state.running = false ∧ state.loops = [] ∧ state.thread = none ∧ state.started = false
  started : state.listenFd ≠ none → state.started = !state.stopRequested

theorem Orderly.tidy {state : State} (h : Orderly state) : Tidy state := by
  rw [Tidy, h.opened]
  constructor
  · split_ifs
    · exact Nat.zero_le 1
    · cases state.listenFd with
      | none => exact Nat.zero_le 1
      | some _ => exact Nat.le_refl 1
  · intro hdestroyed
    rw [if_pos hdestroyed]

theorem destroyed_of_ready {state : State} (hready : state.ready = true) :
    state.destroyed = false := by
  simp only [State.ready, Bool.and_eq_true, Bool.not_eq_true'] at hready
  exact hready.1.2

theorem Orderly.opened_of_ready {state : State} (h : Orderly state) (hready : state.ready = true) :
    state.opened = state.listenFd.toList := by
  rw [h.opened, destroyed_of_ready hready]
  rfl

theorem bindSocket_error {port : UInt16} {opened : List Descriptor} {answers : Answers}
    {error : ErrorInfo} (h : bindSocket port opened answers = .error error) :
    error.code = .ssh .forwardingFailed := by
  unfold bindSocket at h
  split at h
  · rw [← Except.error.inj h]
  · split at h
    · rw [← Except.error.inj h]
    · split at h
      · exact nomatch h
      · rw [← Except.error.inj h]

theorem bindSocket_isOk (port : UInt16) (opened : List Descriptor) (answers : Answers) :
    (bindSocket port opened answers).isOk =
      ((firstBound port opened answers.addresses).isSome && answers.listens) := by
  unfold bindSocket
  split
  · next hempty =>
    rw [hempty]
    rfl
  · split
    · next hnone =>
      rw [hnone]
      rfl
    · next descriptor hsome =>
      rw [hsome]
      cases answers.listens <;> rfl

/-- Open sockets only take addresses away. -/
theorem firstBound_none {port : UInt16} {opened : List Descriptor} {candidates : List Candidate}
    (h : firstBound port [] candidates = none) : firstBound port opened candidates = none := by
  induction candidates with
  | nil => rfl
  | cons candidate rest ih =>
    cases candidate with
    | noSocket => exact ih h
    | socket descriptor granted =>
      cases granted with
      | false => exact ih h
      | true =>
        simp only [firstBound, List.all_nil, Bool.or_true, Bool.and_true, if_true] at h
        exact nomatch h

theorem bindSocket_not_ok {port : UInt16} {opened : List Descriptor} {answers : Answers}
    (h : (bindSocket port [] answers).isOk = false) :
    (bindSocket port opened answers).isOk = false := by
  rw [bindSocket_isOk, Bool.and_eq_false_iff] at h ⊢
  refine h.imp_left fun hnone ↦ ?_
  rw [Option.isSome_eq_false_iff, Option.isNone_iff_eq_none] at hnone ⊢
  exact firstBound_none hnone

/-- A start with a socket of its own. -/
structure Opens (state : State) (descriptor : Descriptor) (after : State) : Prop where
  listenFd : after.listenFd = some descriptor
  opened : after.opened = state.opened ++ [descriptor]
  destroyed : after.destroyed = state.destroyed
  started : after.started = true
  stopRequested : after.stopRequested = false

/-- What a `try_start` can do. -/
theorem tryStart_cases (state : State) (owner : Owner) (port : UInt16) (answers : Answers) :
    (state.running = true ∧ state.tryStart owner port answers =
      (.error (State.alreadyConnected owner "try_start"), state)) ∨
    (state.running = false ∧ ∃ error, bindSocket port state.opened answers = .error error ∧
      state.tryStart owner port answers = (.error error, state)) ∨
    (state.running = false ∧ ∃ descriptor after,
      bindSocket port state.opened answers = .ok descriptor ∧
        state.tryStart owner port answers = (.ok (), after) ∧ Opens state descriptor after) := by
  cases hrunning : state.running with
  | true => exact .inl ⟨rfl, by rw [State.tryStart, if_pos hrunning]⟩
  | false =>
    refine .inr ?_
    rw [State.tryStart, if_neg (by rw [hrunning]; exact Bool.false_ne_true), State.bindListener]
    cases bindSocket port state.opened answers with
    | error error => exact .inl ⟨rfl, error, rfl, rfl⟩
    | ok descriptor =>
      refine .inr ⟨rfl, descriptor, _, rfl, Prod.ext ?_ rfl, ?_⟩
      · dsimp only
        split_ifs <;> rfl
      · dsimp only
        split_ifs <;> exact ⟨rfl, rfl, rfl, rfl, rfl⟩

theorem tryRunUntilStopped_cases (state : State) (owner : Owner) (port : UInt16)
    (answers : Answers) :
    (state.tryRunUntilStopped owner port answers).2 = state ∨
    (state.listenFd ≠ none ∧
      (state.tryRunUntilStopped owner port answers).2 = state.enterLoop) ∨
    (state.listenFd = none ∧ ∃ descriptor,
      Opens state descriptor (state.tryRunUntilStopped owner port answers).2) := by
  unfold State.tryRunUntilStopped
  split_ifs with hrunning hlisten
  · exact .inl rfl
  · exact .inr (.inl ⟨Option.isSome_iff_ne_none.mp hlisten, rfl⟩)
  · rw [State.bindListener]
    cases bindSocket port state.opened answers with
    | error error => exact .inl rfl
    | ok descriptor =>
      refine .inr (.inr ⟨Option.not_isSome_iff_eq_none.mp hlisten, descriptor, ?_⟩)
      exact ⟨rfl, rfl, rfl, rfl, rfl⟩

/-- The first socket of an object. -/
theorem Orderly.opens {state after : State} {descriptor : Descriptor} (h : Orderly state)
    (hready : state.ready = true) (hidle : state.listenFd = none)
    (hopens : Opens state descriptor after) : Orderly after where
  opened := by
    rw [hopens.opened, hopens.destroyed, hopens.listenFd, h.opened_of_ready hready, hidle,
      destroyed_of_ready hready]
    rfl
  idle := fun hnone ↦ nomatch hopens.listenFd.symm.trans hnone
  started := fun _ ↦ by rw [hopens.started, hopens.stopRequested]; rfl

/-- A start that is no restart is of an object without a descriptor, finds `running_` set
or gets no socket. -/
theorem not_restarts {port : UInt16} {state : State} {answers : Answers}
    (hready : state.ready = true) (h : restarts port state (.tryStart answers) = false) :
    state.listenFd = none ∨ (state.started = true ∧ state.running = true) ∨
      (state.started = false ∧ (bindSocket port [] answers).isOk = false) := by
  simp only [restarts, hready, Bool.true_and, Bool.and_eq_false_iff] at h
  rcases h with hnone | hrest
  · rw [Option.isSome_eq_false_iff, Option.isNone_iff_eq_none] at hnone
    exact .inl hnone
  · cases hstarted : state.started with
    | true =>
      rw [hstarted, if_pos rfl, Bool.not_eq_false'] at hrest
      exact .inr (.inl ⟨rfl, hrest⟩)
    | false =>
      rw [hstarted, if_neg Bool.false_ne_true] at hrest
      exact .inr (.inr ⟨rfl, hrest⟩)

theorem Orderly.tryStart {state : State} {owner : Owner} {port : UInt16} {answers : Answers}
    (h : Orderly state) (hready : state.ready = true)
    (hstart : restarts port state (.tryStart answers) = false) :
    Orderly (state.tryStart owner port answers).2 := by
  rcases tryStart_cases state owner port answers with
    ⟨-, heq⟩ | ⟨-, error, -, heq⟩ | ⟨hrunning, descriptor, after, hsocket, heq, hopens⟩
  · rw [heq]
    exact h
  · rw [heq]
    exact h
  · rw [heq]
    rcases not_restarts hready hstart with hidle | ⟨-, hloop⟩ | ⟨-, hnone⟩
    · exact h.opens hready hidle hopens
    · exact nomatch hrunning.symm.trans hloop
    · have hrefused : (bindSocket port state.opened answers).isOk = false :=
        bindSocket_not_ok hnone
      rw [hsocket] at hrefused
      exact nomatch hrefused

/-- A loop that has a descriptor may be anywhere, and so may its flag. -/
theorem Orderly.of_listening {state after : State} (h : Orderly state)
    (hlisten : after.listenFd = state.listenFd) (hsome : state.listenFd ≠ none)
    (hopened : after.opened = state.opened) (hdestroyed : after.destroyed = state.destroyed)
    (hstarted : after.started = !after.stopRequested) : Orderly after where
  opened := by rw [hopened, hdestroyed, hlisten, h.opened]
  idle := fun hnone ↦ absurd (hlisten.symm.trans hnone) hsome
  started := fun _ ↦ hstarted

theorem Orderly.tryRunUntilStopped {state : State} {owner : Owner} {port : UInt16}
    {answers : Answers} (h : Orderly state) (hready : state.ready = true) :
    Orderly (state.tryRunUntilStopped owner port answers).2 := by
  rcases tryRunUntilStopped_cases state owner port answers with
    heq | ⟨hsome, heq⟩ | ⟨hidle, descriptor, hopens⟩
  · rw [heq]
    exact h
  · rw [heq]
    exact h.of_listening rfl hsome rfl rfl rfl
  · exact h.opens hready hidle hopens

theorem Orderly.stop {state : State} (h : Orderly state) : Orderly state.stop where
  opened := h.opened
  idle := fun hnone ↦ ⟨(h.idle hnone).1, (h.idle hnone).2.1, (h.idle hnone).2.2.1, rfl⟩
  started := fun _ ↦ rfl

/-- The destructor closes the only descriptor there is. -/
theorem Orderly.close {state : State} (h : Orderly state) (hdestroyed : state.destroyed = false) :
    Orderly state.close where
  opened := by
    have hopened := h.opened
    rw [hdestroyed] at hopened
    change (match state.listenFd with
      | some descriptor => state.opened.erase descriptor
      | none => state.opened) = []
    rw [hopened]
    cases state.listenFd with
    | none => rfl
    | some descriptor =>
      change [descriptor].erase descriptor = []
      exact List.erase_cons_head descriptor []
  idle := h.idle
  started := h.started

theorem Orderly.destroy {state : State} (h : Orderly state) (hready : state.ready = true) :
    Orderly state.destroy := by
  have hdestroyed := destroyed_of_ready hready
  unfold State.destroy
  split_ifs
  · exact ⟨h.stop.opened, h.stop.idle, h.stop.started⟩
  · exact h.stop.close hdestroyed

theorem Orderly.join {state : State} (h : Orderly state) (hdestroyed : state.destroyed = false) :
    Orderly state.join := by
  have hjoined : Orderly { state with thread := none, waiting := none } :=
    ⟨h.opened, fun hnone ↦ ⟨(h.idle hnone).1, (h.idle hnone).2.1, rfl, (h.idle hnone).2.2.2⟩,
      h.started⟩
  unfold State.join
  split
  · split_ifs
    · split
      · exact hjoined
      · exact hjoined.close hdestroyed
    · exact h
  · exact h

theorem Orderly.loopStep {state : State} (h : Orderly state) (index : ℕ) :
    Orderly (state.loopStep index) := by
  by_cases hidle : state.listenFd = none
  · have hstuck : state.loopStep index = state := by
      simp only [State.loopStep, (h.idle hidle).2.1, List.getElem?_nil]
    rw [hstuck]
    exact h
  · have hstarted := h.started hidle
    unfold State.loopStep
    split
    · exact h.of_listening rfl hidle rfl rfl hstarted
    · split_ifs
      · exact h.of_listening rfl hidle rfl rfl hstarted
      · exact h
    · exact h.of_listening rfl hidle rfl rfl hstarted
    · exact h

/-! ### Runs -/

theorem orderly_step (owner : Owner) (port : UInt16) (event : Event) :
    Triple (fun state ↦ Orderly state ∧ restarts port state event = false) (step owner port event)
      fun _ ↦ Orderly := by
  intro state ⟨h, hstart⟩
  change Orderly (event.apply owner port state)
  cases event with
  | tryStart answers =>
    simp only [Event.apply]
    split_ifs with hready
    · exact h.tryStart hready hstart
    · exact h
  | tryRunUntilStopped answers =>
    simp only [Event.apply]
    split_ifs with hready
    · exact h.tryRunUntilStopped hready
    · exact h
  | stop =>
    simp only [Event.apply]
    split_ifs
    · exact h.stop
    · exact h
  | destroy =>
    simp only [Event.apply]
    split_ifs with hready
    · exact h.destroy hready
    · exact h
  | join =>
    simp only [Event.apply]
    split_ifs with hgone
    · exact h
    · rw [Bool.or_eq_true, not_or, Bool.not_eq_true, Bool.not_eq_true] at hgone
      exact h.join hgone.2
  | loop index =>
    simp only [Event.apply]
    split_ifs
    · exact h
    · exact h.loopStep index

/-- A start that is no restart is refused if the last one has not been stopped. -/
theorem Orderly.refuses {owner : Owner} {port : UInt16} {state : State} {answers : Answers}
    (h : Orderly state) (hready : state.ready = true)
    (hstart : restarts port state (.tryStart answers) = false) (hstarted : state.started = true) :
    state.tryStart owner port answers =
      (.error (State.alreadyConnected owner "try_start"), state) := by
  have hrunning : state.running = true := by
    rcases not_restarts hready hstart with hidle | ⟨-, hloop⟩ | ⟨hstopped, -⟩
    · exact nomatch (h.idle hidle).2.2.2.symm.trans hstarted
    · exact hloop
    · exact nomatch hstopped.symm.trans hstarted
  rw [State.tryStart, if_pos hrunning]

/-- A start that is no restart works after a `stop`, if the system has a socket to give. -/
theorem Orderly.works {owner : Owner} {port : UInt16} {state : State} {answers : Answers}
    (h : Orderly state) (hready : state.ready = true)
    (hstart : restarts port state (.tryStart answers) = false)
    (hstopped : state.stopRequested = true) (hsocket : (bindSocket port [] answers).isOk = true) :
    (state.tryStart owner port answers).1 = .ok () := by
  have hidle : state.listenFd = none := by
    by_contra hsome
    rcases not_restarts hready hstart with hidle | ⟨hstarted, -⟩ | ⟨-, hnone⟩
    · exact hsome hidle
    · have hflag := h.started hsome
      rw [hstarted, hstopped] at hflag
      exact nomatch hflag
    · exact nomatch hnone.symm.trans hsocket
  have hopened : state.opened = [] := by rw [h.opened_of_ready hready, hidle]; rfl
  rcases tryStart_cases state owner port answers with
    ⟨hrunning, -⟩ | ⟨-, error, herror, -⟩ | ⟨-, descriptor, after, -, heq, -⟩
  · exact nomatch (h.idle hidle).1.symm.trans hrunning
  · rw [← hopened, herror] at hsocket
    exact nomatch hsocket
  · rw [heq]

theorem Orderly.answered {owner : Owner} {port : UInt16} {state : State} {event : Event}
    (h : Orderly state) (hstart : restarts port state event = false) :
    Answered owner port state event := by
  cases event with
  | tryRunUntilStopped _ => trivial
  | stop => trivial
  | destroy => trivial
  | join => trivial
  | loop _ => trivial
  | tryStart answers => exact fun hready ↦ ⟨h.refuses hready hstart, h.works hready hstart⟩

/-- Before a loop has set `running_`, a start goes on to `bind_listener`, whose errors have
another code. -/
theorem not_refused {owner : Owner} {port : UInt16} {state : State} {answers : Answers}
    (hrunning : state.running = false) : state.tryStart owner port answers ≠
      (.error (State.alreadyConnected owner "try_start"), state) := by
  intro hresult
  rcases tryStart_cases state owner port answers with
    ⟨hloop, -⟩ | ⟨-, error, herror, heq⟩ | ⟨-, descriptor, after, -, heq, -⟩
  · exact nomatch hrunning.symm.trans hloop
  · rw [heq, Prod.mk.injEq, Except.error.injEq] at hresult
    have hcode := bindSocket_error herror
    rw [hresult.1] at hcode
    exact nomatch hcode
  · exact nomatch heq.symm.trans hresult

/-- A start that succeeds opens a descriptor beside the one there is. -/
theorem Orderly.second_descriptor {owner : Owner} {port : UInt16} {state : State}
    {answers : Answers} (h : Orderly state) (hready : state.ready = true)
    (hsome : state.listenFd ≠ none) (hok : (state.tryStart owner port answers).1 = .ok ()) :
    (state.tryStart owner port answers).2.opened.length = 2 := by
  rcases tryStart_cases state owner port answers with
    ⟨-, heq⟩ | ⟨-, error, -, heq⟩ | ⟨-, descriptor, after, -, heq, hopens⟩
  · rw [heq] at hok
    exact nomatch hok
  · rw [heq] at hok
    exact nomatch hok
  · obtain ⟨first, hfirst⟩ := Option.ne_none_iff_exists'.mp hsome
    rw [heq, hopens.opened, h.opened_of_ready hready, hfirst]
    rfl

/-- A restart is not refused, or leaves the first descriptor behind. -/
theorem Orderly.not_proper {owner : Owner} {port : UInt16} {state : State} {event : Event}
    (h : Orderly state) (hstart : restarts port state event = true) :
    ¬ Proper owner port state event := by
  intro ⟨hanswered, htidy⟩
  cases event with
  | tryRunUntilStopped _ => exact nomatch hstart
  | stop => exact nomatch hstart
  | destroy => exact nomatch hstart
  | join => exact nomatch hstart
  | loop _ => exact nomatch hstart
  | tryStart answers =>
    simp only [restarts, Bool.and_eq_true, Option.isSome_iff_ne_none] at hstart
    obtain ⟨⟨hready, hsome⟩, hrest⟩ := hstart
    obtain ⟨hrefused, hserved⟩ := hanswered hready
    cases hstarted : state.started with
    | true =>
      rw [hstarted, if_pos rfl, Bool.not_eq_true'] at hrest
      exact not_refused hrest (hrefused hstarted)
    | false =>
      have hflag := h.started hsome
      rw [hstarted, eq_comm, Bool.not_eq_false'] at hflag
      rw [hstarted, if_neg Bool.false_ne_true] at hrest
      have hafter : (step owner port (.tryStart answers) state).2 =
          (state.tryStart owner port answers).2 := if_pos hready
      have hcount := htidy.1
      rw [hafter, h.second_descriptor hready hsome (hserved hflag hrest)] at hcount
      exact absurd hcount (by decide : ¬ 2 ≤ 1)

theorem orderly_start : Orderly {} where
  opened := rfl
  idle := fun _ ↦ ⟨rfl, rfl, rfl, rfl⟩
  started := fun hsome ↦ absurd rfl hsome

/-- In every run of calls on a `LocalForward` or a `SocksProxy` and of the steps of their
accept loops, at most one listening descriptor is open at a time, and none after the
destructor, a `try_start` is refused while a start has not been stopped and succeeds after
a `stop`, if and only if no `try_start` is made while there is a listening descriptor,
except after the loop of the last start has set `running_` and before a `stop`, or after a
`stop` where the system has no socket to give. -/
theorem starts_proper_iff (owner : Owner) (port : UInt16) (schedule : List Event) :
    (∀ served event, served ++ [event] <+: schedule →
      Proper owner port (stateAfter (step owner port) served {}) event) ↔
      Allowed (step owner port) (fun state event ↦ restarts port state event = false)
        schedule {} := by
  rw [← allowed_iff_forall_prefix]
  refine (allowed_iff_of_invariant (fun state event h ↦ ?_) (orderly_step owner port)
    orderly_start).symm
  constructor
  · intro hstart
    exact ⟨h.answered hstart, (orderly_step owner port event state ⟨h, hstart⟩).tidy⟩
  · intro hproper
    by_contra hstart
    rw [Bool.not_eq_false] at hstart
    exact h.not_proper hstart hproper

/-- Grants a socket with the number. -/
def granting (fd address : ℕ) : Answers where
  addresses := [.socket ⟨fd, address⟩ true]

/-- A start, a second one before the loop of the first has set `running_`. -/
def earlySecondStart : List Event := [.tryStart (granting 3 0), .tryStart (granting 4 1)]

/-- A start, a `stop`, which waits for the loop, a second start and the destructor. -/
def startAgain : List Event :=
  [.tryStart (granting 3 0), .loop 0, .stop, .loop 0, .loop 0, .join, .tryStart (granting 4 1),
    .destroy, .loop 1, .loop 1, .loop 1, .join]

/-- The second start is not refused and ends the process with two descriptors open, and
one after a `stop` leaves the first descriptor open. -/
theorem restart_not_proper :
    ¬ (∀ served event, served ++ [event] <+: earlySecondStart →
        Proper .localForward 0 (stateAfter (step .localForward 0) served {}) event) ∧
      ¬ ∀ served event, served ++ [event] <+: startAgain →
        Proper .localForward 0 (stateAfter (step .localForward 0) served {}) event := by
  constructor
  · intro h
    have hsecond := (h [.tryStart (granting 3 0)] (.tryStart (granting 4 1)) ⟨[], rfl⟩).2.1
    exact absurd hsecond (by decide +kernel)
  · intro h
    have hsecond := (h (startAgain.take 6) (.tryStart (granting 4 1))
      (List.take_prefix 7 startAgain)).2.1
    exact absurd hsecond (by decide +kernel)

/-! The first descriptor stays open after the destructor. For a fixed port it holds the
address, and the start after a `stop` fails. -/

example : (stateAfter (step .localForward 0) startAgain {}).destroyed = true ∧
    (stateAfter (step .localForward 0) startAgain {}).opened = [⟨3, 0⟩] := by
  decide +kernel

example : ((stateAfter (step .localForward 8080) (startAgain.take 6) {}).tryStart .localForward
    8080 (granting 4 0)).1 = .error { code := .ssh .forwardingFailed, operation := "bind" } := by
  decide +kernel

end LibSshpp.Forwarding.AcceptLoop
