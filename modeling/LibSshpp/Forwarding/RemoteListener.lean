import LibSshpp.Foundation.Bytes
import LibSshpp.Foundation.Error
import LibSshpp.Program.StateTriple
import Mathlib.Logic.Function.Basic

/-!
`RemoteForwardListener`, the owner of one `tcpip-forward` of the server. The port to
cancel later is the one `ssh_channel_listen_forward` stores through its
out-parameter, and that call stores a port only when it was asked for port 0; for a
fixed port `create` keeps the 0 the variable was initialised with.
-/

set_option autoImplicit false
set_option relaxedAutoImplicit false

namespace LibSshpp.Forwarding.RemoteListener

open Program

/-- What the session's calls ask of the server: a forward, with the port that was
asked for and the one the server then listens on, or the end of one. The address is
null for an empty one. -/
inductive Request
  | listen (address : Option Bytes) (port serverPort : UInt16)
  | cancel (address : Option Bytes) (port : UInt16)
  deriving DecidableEq, Repr

/-- A `RemoteForwardListener`; `core` says whether it points to a session. `forward` is
no member of the class: it is the request the object was made by, as its place in
the trace. -/
structure Listener where
  core : Bool := false
  bindAddress : Bytes := []
  boundPort : UInt16 := 0
  cancelled : Bool := false
  forward : ℕ := 0
  deriving DecidableEq, Repr

/-- The address as libssh gets it. -/
def addressArgument (bindAddress : Bytes) : Option Bytes :=
  if bindAddress = [] then none else some (cString bindAddress)

/-- The variables and what was asked of the server. -/
structure State where
  listeners : ℕ → Option Listener := fun _ ↦ none
  trace : List Request := []

namespace State

def put (state : State) (name : ℕ) (listener : Option Listener) : State :=
  { state with listeners := Function.update state.listeners name listener }

def request (state : State) (made : Request) : State :=
  { state with trace := state.trace ++ [made] }

end State

def Listener.cancelRequest (listener : Listener) : Request :=
  .cancel (addressArgument listener.bindAddress) listener.boundPort

/-- What the destructor does, and an assignment before it overwrites the object. -/
def State.release (state : State) (listener : Listener) : State :=
  if listener.core && !listener.cancelled then state.request listener.cancelRequest else state

/-- What a move leaves behind. -/
def Listener.movedFrom (listener : Listener) : Listener :=
  { listener with core := false, bindAddress := [], cancelled := true }

/-- The port that `ssh_channel_listen_forward` leaves in its out-parameter, and `create`
takes for the bound port: it is stored only if the requested one is 0. -/
def boundOut (port serverPort : UInt16) : UInt16 := if port = 0 then serverPort else 0

namespace State

/-- `RemoteForwardListener::create`, with the port the server chooses if it is asked to,
or with libssh's error. -/
def create (state : State) (name : ℕ) (bindAddress : Bytes) (port : UInt16) :
    Except SshError UInt16 → Result Unit × State
  | .error last =>
    (.error (makeErrorInfo last "ssh_channel_listen_forward" .forwardingFailed), state)
  | .ok allocated =>
    let serverPort := if port = 0 then allocated else port
    (.ok (), (state.request (.listen (addressArgument bindAddress) port serverPort)).put name (some {
      core := true, bindAddress, boundPort := boundOut port serverPort
      forward := state.trace.length }))

/-- `RemoteForwardListener::try_cancel`; `failure` is libssh's error if the call has one. -/
def tryCancel (state : State) (name : ℕ) (listener : Listener) (failure : Option SshError) :
    Result Unit × State :=
  if listener.core then
    (match failure with
      | some last =>
        .error (makeErrorInfo last "ssh_channel_cancel_forward" .forwardingFailed)
      | none => .ok (),
      (state.request listener.cancelRequest).put name (some { listener with cancelled := true }))
  else
    (.error { code := .ssh .invalidHandle, operation := "RemoteForwardListener::try_cancel" },
      state)

def move (state : State) (name other : ℕ) (listener : Listener) : State :=
  (state.put name (some listener)).put other (some listener.movedFrom)

def moveAssign (state : State) (name other : ℕ) (target source : Listener) : State :=
  if name = other then state else (state.release target).move name other source

def destroy (state : State) (name : ℕ) (listener : Listener) : State :=
  (state.release listener).put name none

end State

/-- One operation of a program over listener variables of a live session. -/
inductive Op
  | default (name : ℕ)
  | create (name : ℕ) (bindAddress : Bytes) (port : UInt16) (answer : Except SshError UInt16)
  | tryCancel (name : ℕ) (failure : Option SshError)
  | moveConstruct (name other : ℕ)
  | moveAssign (name other : ℕ)
  | destroy (name : ℕ)

/-- An operation on variables that are not there is no C++ program; it does nothing
here. -/
def Op.apply (state : State) : Op → State
  | .default name =>
    match state.listeners name with
    | none => state.put name (some {})
    | some _ => state
  | .create name bindAddress port answer =>
    match state.listeners name with
    | none => (state.create name bindAddress port answer).2
    | some _ => state
  | .tryCancel name failure =>
    match state.listeners name with
    | some listener => (state.tryCancel name listener failure).2
    | none => state
  | .moveConstruct name other =>
    match state.listeners name, state.listeners other with
    | none, some listener => state.move name other listener
    | _, _ => state
  | .moveAssign name other =>
    match state.listeners name, state.listeners other with
    | some target, some source => state.moveAssign name other target source
    | _, _ => state
  | .destroy name =>
    match state.listeners name with
    | some listener => state.destroy name listener
    | none => state

def step (op : Op) : StateM State Unit := fun state ↦ ((), op.apply state)

/-! ### What a program should see -/

/-- The variable owns the forward: it would cancel it when destroyed. -/
def State.Owns (state : State) (name forward : ℕ) : Prop :=
  ∃ listener, state.listeners name = some listener ∧ listener.core = true ∧
    listener.cancelled = false ∧ listener.forward = forward

/-- A created listener reports the port the server listens on, and a forward that no
variable owns any more has been cancelled with its address and that port. -/
structure Faithful (state : State) : Prop where
  bound : ∀ name listener, state.listeners name = some listener → listener.core = true →
    ∃ port, state.trace[listener.forward]? =
      some (.listen (addressArgument listener.bindAddress) port listener.boundPort)
  cancelled : ∀ (forward : ℕ) (address : Option Bytes) (port serverPort : UInt16),
    state.trace[forward]? = some (.listen address port serverPort) →
      (∃ name, state.Owns name forward) ∨
        ∃ later, forward < later ∧ state.trace[later]? = some (.cancel address serverPort)

/-- The operation creates a listener for a port of the caller's choice, and succeeds. -/
def FixedPort (state : State) : Op → Prop
  | .create name _ port answer =>
    state.listeners name = none ∧ port ≠ 0 ∧ ∃ allocated, answer = .ok allocated
  | _ => False

/-! ### The operations -/

theorem listeners_put (state : State) (name other : ℕ) (listener : Option Listener) :
    (state.put name listener).listeners other =
      if other = name then listener else state.listeners other := by
  by_cases hsame : other = name
  · subst hsame
    simp [State.put]
  · simp [State.put, hsame]

/-- Other variables own what they owned. -/
theorem owns_put_of_ne {state : State} {name other forward : ℕ} {listener : Option Listener}
    (hne : other ≠ name) (h : state.Owns other forward) :
    (state.put name listener).Owns other forward := by
  obtain ⟨found, hfound, hrest⟩ := h
  exact ⟨found, by rw [listeners_put, if_neg hne]; exact hfound, hrest⟩

theorem trace_concat {requests : List Request} {index : ℕ} {made request : Request}
    (h : requests[index]? = some request) : (requests ++ [made])[index]? = some request := by
  obtain ⟨hlt, -⟩ := List.getElem?_eq_some_iff.mp h
  rw [List.getElem?_append_left hlt]
  exact h

/-- A request at the end of the trace, or one from before. -/
theorem trace_concat_cases {requests : List Request} {index : ℕ} {made request : Request}
    (h : (requests ++ [made])[index]? = some request) :
    requests[index]? = some request ∨ (index = requests.length ∧ request = made) := by
  rcases Nat.lt_trichotomy index requests.length with hlt | rfl | hgt
  · rw [List.getElem?_append_left hlt] at h
    exact .inl h
  · rw [List.getElem?_concat_length] at h
    exact .inr ⟨rfl, (Option.some.inj h).symm⟩
  · rw [List.getElem?_eq_none (by rw [List.length_append, List.length_singleton]; omega)] at h
    exact nomatch h

/-- A variable that owns nothing afterwards, after it asked for the end of what it
owned. -/
theorem Faithful.cancel {state : State} {name : ℕ} {listener : Listener} {new : Option Listener}
    (h : Faithful state) (hlistener : state.listeners name = some listener)
    (hcore : listener.core = true)
    (hnew : ∀ found, new = some found → found.core = true →
      found.bindAddress = listener.bindAddress ∧ found.boundPort = listener.boundPort ∧
        found.forward = listener.forward) :
    Faithful ((state.request listener.cancelRequest).put name new) where
  bound := by
    intro other found hfound hfoundCore
    rw [listeners_put] at hfound
    split_ifs at hfound
    · obtain ⟨haddress, hport, hforward⟩ := hnew found hfound hfoundCore
      obtain ⟨port, hlisten⟩ := h.bound name listener hlistener hcore
      rw [haddress, hport, hforward]
      exact ⟨port, trace_concat hlisten⟩
    · obtain ⟨port, hlisten⟩ := h.bound other found hfound hfoundCore
      exact ⟨port, trace_concat hlisten⟩
  cancelled := by
    intro forward address port serverPort hforward
    rcases trace_concat_cases hforward with hold | ⟨-, heq⟩
    · rcases h.cancelled forward address port serverPort hold with ⟨owner, howns⟩ | hlater
      · by_cases hsame : owner = name
        · -- the request that was just made is the one that is due
          subst hsame
          obtain ⟨found, hfound, -, -, rfl⟩ := howns
          obtain rfl := Option.some.inj (hlistener.symm.trans hfound)
          obtain ⟨asked, hlisten⟩ := h.bound owner listener hlistener hcore
          obtain ⟨rfl, -, rfl⟩ := Request.listen.inj (Option.some.inj (hlisten.symm.trans hold))
          refine .inr ⟨state.trace.length, ?_, List.getElem?_concat_length⟩
          exact (List.getElem?_eq_some_iff.mp hold).choose
        · exact .inl ⟨owner, owns_put_of_ne hsame howns⟩
      · obtain ⟨later, hlt, hcancel⟩ := hlater
        exact .inr ⟨later, hlt, trace_concat hcancel⟩
    · exact nomatch heq

/-- A change of a variable that owns nothing and is not made an owner. -/
theorem Faithful.put_idle {state : State} {name : ℕ} {new : Option Listener} (h : Faithful state)
    (hidle : ∀ forward, ¬ state.Owns name forward)
    (hnew : ∀ found, new = some found → found.core = false) : Faithful (state.put name new) where
  bound := by
    intro other found hfound hcore
    rw [listeners_put] at hfound
    split_ifs at hfound
    · exact nomatch (hnew found hfound).symm.trans hcore
    · exact h.bound other found hfound hcore
  cancelled := by
    intro forward address port serverPort hforward
    refine (h.cancelled forward address port serverPort hforward).imp_left ?_
    rintro ⟨owner, howns⟩
    refine ⟨owner, owns_put_of_ne ?_ howns⟩
    rintro rfl
    exact hidle forward howns

/-- What the destructor does first leaves a variable that may be vacated. -/
theorem Faithful.release {state : State} {name : ℕ} {listener : Listener} (h : Faithful state)
    (hlistener : state.listeners name = some listener) :
    Faithful ((state.release listener).put name none) := by
  unfold State.release
  split_ifs with howner
  · rw [Bool.and_eq_true] at howner
    exact h.cancel hlistener howner.1 fun _ hnone ↦ nomatch hnone
  · refine h.put_idle ?_ fun _ hnone ↦ nomatch hnone
    rintro forward ⟨found, hfound, hcore, hcancelled, -⟩
    obtain rfl := Option.some.inj (hlistener.symm.trans hfound)
    exact howner (by rw [hcore, hcancelled]; rfl)

theorem Faithful.move {state : State} {name other : ℕ} {listener : Listener} (h : Faithful state)
    (hname : state.listeners name = none) (hother : state.listeners other = some listener) :
    Faithful (state.move name other listener) where
  bound := by
    intro each found hfound hcore
    rw [State.move, listeners_put, listeners_put] at hfound
    split_ifs at hfound
    · obtain rfl := Option.some.inj hfound
      exact nomatch hcore
    · obtain rfl := Option.some.inj hfound
      exact h.bound other listener hother hcore
    · exact h.bound each found hfound hcore
  cancelled := by
    intro forward address port serverPort hforward
    refine (h.cancelled forward address port serverPort hforward).imp_left ?_
    rintro ⟨owner, found, hfound, hrest⟩
    have hne : name ≠ other := by
      rintro rfl
      exact nomatch hname.symm.trans hother
    by_cases hsource : owner = other
    · subst hsource
      obtain rfl := Option.some.inj (hother.symm.trans hfound)
      refine ⟨name, listener, ?_, hrest⟩
      rw [State.move, listeners_put, if_neg hne, listeners_put, if_pos rfl]
    · have htarget : owner ≠ name := by
        rintro rfl
        exact nomatch hname.symm.trans hfound
      refine ⟨owner, found, ?_, hrest⟩
      rw [State.move, listeners_put, if_neg hsource, listeners_put, if_neg htarget]
      exact hfound

theorem put_put (state : State) (name : ℕ) (first second : Option Listener) :
    (state.put name first).put name second = state.put name second := by
  simp [State.put]

theorem Faithful.moveAssign {state : State} {name other : ℕ} {target source : Listener}
    (h : Faithful state) (htarget : state.listeners name = some target)
    (hsource : state.listeners other = some source) :
    Faithful (state.moveAssign name other target source) := by
  unfold State.moveAssign
  split_ifs with hself
  · exact h
  · have hkept : ((state.release target).put name none).listeners other = some source := by
      rw [listeners_put, if_neg (Ne.symm hself), ← hsource]
      unfold State.release
      split_ifs <;> rfl
    have hvacant : ((state.release target).put name none).listeners name = none := by
      rw [listeners_put, if_pos rfl]
    have hmoved := (h.release htarget).move hvacant hkept
    rw [State.move, put_put] at hmoved
    exact hmoved

theorem Faithful.tryCancel {state : State} {name : ℕ} {listener : Listener} (h : Faithful state)
    (hlistener : state.listeners name = some listener) (failure : Option SshError) :
    Faithful (state.tryCancel name listener failure).2 := by
  unfold State.tryCancel
  split_ifs with hcore
  · refine h.cancel hlistener hcore fun found hfound _ ↦ ?_
    obtain rfl := Option.some.inj hfound
    exact ⟨rfl, rfl, rfl⟩
  · exact h

/-- A listener for a port the server chooses knows that port. -/
theorem Faithful.create {state : State} {name : ℕ} (h : Faithful state)
    (hname : state.listeners name = none) (bindAddress : Bytes) {port : UInt16}
    {answer : Except SshError UInt16} (hport : ∀ allocated, answer = .ok allocated → port = 0) :
    Faithful (state.create name bindAddress port answer).2 := by
  cases answer with
  | error last => exact h
  | ok allocated =>
    obtain rfl := hport allocated rfl
    have hcreate : (state.create name bindAddress 0 (.ok allocated)).2 =
        (state.request (.listen (addressArgument bindAddress) 0 allocated)).put name (some {
          core := true, bindAddress, boundPort := allocated
          forward := state.trace.length }) := rfl
    rw [hcreate]
    constructor
    · intro other found hfound hcore
      rw [listeners_put] at hfound
      split_ifs at hfound
      · obtain rfl := Option.some.inj hfound
        exact ⟨0, List.getElem?_concat_length⟩
      · obtain ⟨asked, hlisten⟩ := h.bound other found hfound hcore
        exact ⟨asked, trace_concat hlisten⟩
    · intro forward address port serverPort hforward
      rcases trace_concat_cases hforward with hold | ⟨rfl, -⟩
      · rcases h.cancelled forward address port serverPort hold with ⟨owner, howns⟩ | hlater
        · refine .inl ⟨owner, owns_put_of_ne ?_ howns⟩
          rintro rfl
          obtain ⟨found, hfound, -⟩ := howns
          exact nomatch hname.symm.trans hfound
        · obtain ⟨later, hlt, hcancel⟩ := hlater
          exact .inr ⟨later, hlt, trace_concat hcancel⟩
      · refine .inl ⟨name, { core := true, bindAddress, boundPort := allocated
                             forward := state.trace.length }, ?_, rfl, rfl, rfl⟩
        rw [listeners_put, if_pos rfl]

/-! ### Runs -/

theorem faithful_step (op : Op) :
    Triple (fun state ↦ Faithful state ∧ ¬ FixedPort state op) (step op) fun _ ↦ Faithful := by
  intro state ⟨h, hport⟩
  change Faithful (op.apply state)
  cases op with
  | default name =>
    simp only [Op.apply]
    split
    · next hname =>
      refine h.put_idle ?_ fun found hfound ↦ ?_
      · rintro forward ⟨found, hfound, -⟩
        exact nomatch hname.symm.trans hfound
      · rw [← Option.some.inj hfound]
    · exact h
  | create name bindAddress port answer =>
    simp only [Op.apply]
    split
    · next hname =>
      refine h.create hname bindAddress fun allocated hanswer ↦ ?_
      by_contra hfixed
      exact hport ⟨hname, hfixed, allocated, hanswer⟩
    · exact h
  | tryCancel name failure =>
    simp only [Op.apply]
    split
    · next hname => exact h.tryCancel hname failure
    · exact h
  | moveConstruct name other =>
    simp only [Op.apply]
    split
    · next hname hother => exact h.move hname hother
    · exact h
  | moveAssign name other =>
    simp only [Op.apply]
    split
    · next htarget hsource => exact h.moveAssign htarget hsource
    · exact h
  | destroy name =>
    simp only [Op.apply]
    split
    · next hname => exact h.release hname
    · exact h

/-- A listener for a fixed port reports port 0. -/
theorem not_faithful_of_fixedPort {state : State} {op : Op} (hport : FixedPort state op) :
    ¬ Faithful (step op state).2 := by
  intro hafter
  cases op with
  | default _ => exact hport
  | tryCancel _ _ => exact hport
  | moveConstruct _ _ => exact hport
  | moveAssign _ _ => exact hport
  | destroy _ => exact hport
  | create name bindAddress port answer =>
    obtain ⟨hname, hfixed, allocated, rfl⟩ := hport
    have hcreate : (step (.create name bindAddress port (.ok allocated)) state).2 =
        (state.request (.listen (addressArgument bindAddress) port port)).put name (some {
          core := true, bindAddress, boundPort := 0, forward := state.trace.length }) := by
      simp only [step, Op.apply, hname, State.create, boundOut, if_neg hfixed]
    rw [hcreate] at hafter
    have hlistener := (listeners_put (state.request (.listen (addressArgument bindAddress) port port))
      name name (some { core := true, bindAddress, boundPort := 0,
                        forward := state.trace.length })).trans (if_pos rfl)
    obtain ⟨asked, hlisten⟩ := hafter.bound name _ hlistener rfl
    have hlast := hlisten.symm.trans List.getElem?_concat_length
    exact hfixed (Request.listen.inj (Option.some.inj hlast)).2.2.symm

theorem faithful_start : Faithful {} where
  bound := fun _ _ hnone ↦ nomatch hnone
  cancelled := fun _ _ _ _ hnone ↦ nomatch hnone

/-- After every operation of a program over listeners, every created listener reports
the port the server listens on and every forward without an owner has been cancelled
with its address and that port, if and only if the program never successfully creates
a listener for a port other than 0.
Assumes: `ssh_channel_listen_forward` stores a port only when asked for port 0. -/
theorem remoteListener_faithful_iff (program : List Op) :
    (∀ served, served <+: program → Faithful (stateAfter step served {})) ↔
      Allowed step (fun state op ↦ ¬ FixedPort state op) program {} := by
  constructor
  · intro h
    refine allowed_of_invariant (fun op state _ hafter hport ↦ ?_) h
    exact not_faithful_of_fixedPort hport hafter
  · intro h served hserved
    exact invariant_of_allowed faithful_step h faithful_start hserved

/-- A listener for port 8080 that is created and destroyed. -/
def fixedPortProgram : List Op := [.create 0 (ascii "localhost") 8080 (.ok 0), .destroy 0]

/-- It reports port 0, and port 0 is what is cancelled. -/
theorem fixedPort_left_open :
    ¬ Faithful (stateAfter step (fixedPortProgram.take 1) {}) ∧
      ¬ Faithful (stateAfter step fixedPortProgram {}) := by
  constructor
  · exact not_faithful_of_fixedPort ⟨rfl, by decide, 0, rfl⟩
  · intro h
    have htrace : (stateAfter step fixedPortProgram {}).trace =
        [.listen (some (ascii "localhost")) 8080 8080, .cancel (some (ascii "localhost")) 0] := by
      decide +kernel
    rcases h.cancelled 0 (some (ascii "localhost")) 8080 8080 (by rw [htrace]; rfl) with
      ⟨owner, listener, hlistener, -⟩ | ⟨later, hlater, hcancel⟩
    · have hnone : (stateAfter step fixedPortProgram {}).listeners owner = none := by
        change (((State.put _ 0 _).release _).put 0 none).listeners owner = none
        rw [listeners_put]
        by_cases howner : owner = 0
        · rw [if_pos howner]
        · rw [if_neg howner]
          change (State.put _ 0 _).listeners owner = none
          rw [listeners_put, if_neg howner]
          rfl
      exact nomatch hnone.symm.trans hlistener
    · rw [htrace] at hcancel
      match later, hlater, hcancel with
      | 1, _, hcancel => exact absurd hcancel (by decide +kernel)
      | _ + 2, _, hcancel => exact nomatch hcancel

end LibSshpp.Forwarding.RemoteListener
