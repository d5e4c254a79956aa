import Mathlib.Data.List.Infix

/-!
Pre- and postconditions for programs in the state monad, and runs of a program that
handles one input after another.
-/

set_option autoImplicit false
set_option relaxedAutoImplicit false

namespace LibSshpp.Program

variable {σ α β ι : Type}

/-- From every state with `pre` the program ends in a state with `post`. -/
def Triple (pre : σ → Prop) (program : StateM σ α) (post : α → σ → Prop) : Prop :=
  ∀ state, pre state → post (program state).1 (program state).2

/-- The program keeps `inv`. -/
def Keeps (inv : σ → Prop) (program : StateM σ α) : Prop :=
  Triple inv program fun _ ↦ inv

/-- A program whose first call is known to return goes on with what it returns. -/
theorem bind_of_eq {program : StateM σ α} {next : α → StateM σ β} {state after : σ} {value : α}
    (h : program state = (value, after)) : (program >>= next) state = next value after := by
  change next (program state).1 (program state).2 = next value after
  rw [h]

/-- A program that may give up goes on with what its first part returns. -/
theorem bind_of_some {program : OptionT (StateM σ) α} {next : α → OptionT (StateM σ) β}
    {state after : σ} {value : α} (h : program state = (some value, after)) :
    (program >>= next) state = next value after := by
  change (OptionT.bind program next) state = next value after
  exact bind_of_eq h

theorem bind_of_none {program : OptionT (StateM σ) α} {next : α → OptionT (StateM σ) β}
    {state after : σ} (h : program state = (none, after)) :
    (program >>= next) state = (none, after) := by
  change (OptionT.bind program next) state = (none, after)
  exact bind_of_eq h

/-- A program that only returns leaves the state alone. -/
theorem stateT_pure (value : α) :
    (StateT.pure value : StateM σ α) = fun state ↦ pure (value, state) := rfl

theorem bind_congr_at {program : StateM σ α} {next other : α → StateM σ β} {state : σ}
    (h : ∀ value after, program state = (value, after) → next value after = other value after) :
    (program >>= next) state = (program >>= other) state :=
  h _ _ rfl

namespace Triple

variable {pre : σ → Prop} {post : α → σ → Prop}

theorem pure {value : α} (h : ∀ state, pre state → post value state) :
    Triple pre (Pure.pure value) post := h

theorem bind {program : StateM σ α} {next : α → StateM σ β} {post' : β → σ → Prop}
    (h : Triple pre program post) (hnext : ∀ value, Triple (post value) (next value) post') :
    Triple pre (program >>= next) post' :=
  fun state hpre ↦ hnext _ _ (h state hpre)

theorem ite {c : Prop} [Decidable c] {program other : StateM σ α}
    (h : c → Triple pre program post) (hother : ¬ c → Triple pre other post) :
    Triple pre (if c then program else other) post := by
  split_ifs with hc
  · exact h hc
  · exact hother hc

theorem mono {pre' : σ → Prop} {post' : α → σ → Prop} {program : StateM σ α}
    (h : Triple pre program post) (hpre : ∀ state, pre' state → pre state)
    (hpost : ∀ value state, post value state → post' value state) : Triple pre' program post' :=
  fun state hstate ↦ hpost _ _ (h state (hpre state hstate))

/-- A call whose outcome decides how the program goes on. -/
theorem bindExcept {ε : Type} {mid : σ → Prop} {call : StateM σ (Except ε α)}
    {next : Except ε α → StateM σ β} {post' : β → σ → Prop} (h : Triple pre call fun _ ↦ mid)
    (herror : ∀ error, Triple mid (next (.error error)) post')
    (hok : ∀ value, Triple mid (next (.ok value)) post') :
    Triple pre (call >>= next) post' := by
  refine Triple.bind h fun result ↦ ?_
  cases result with
  | error error => exact herror error
  | ok value => exact hok value

/-- A fact that does not depend on the state may be taken out of a precondition. -/
theorem of_fact {fact : Prop} {program : StateM σ α} (h : fact → Triple pre program post) :
    Triple (fun state ↦ pre state ∧ fact) program post :=
  fun state hstate ↦ h hstate.2 state hstate.1

end Triple

namespace Keeps

variable {inv : σ → Prop}

theorem pure (value : α) : Keeps inv (Pure.pure value) := Triple.pure fun _ h ↦ h

theorem bind {program : StateM σ α} {next : α → StateM σ β} (h : Keeps inv program)
    (hnext : ∀ value, Keeps inv (next value)) : Keeps inv (program >>= next) :=
  Triple.bind h hnext

theorem ite {c : Prop} [Decidable c] {program other : StateM σ α} (h : c → Keeps inv program)
    (hother : ¬ c → Keeps inv other) : Keeps inv (if c then program else other) :=
  Triple.ite h hother

end Keeps

/-! ### Runs -/

/-- Handles the inputs in their order. -/
def runAll (step : ι → StateM σ Unit) : List ι → StateM σ Unit
  | [] => Pure.pure ()
  | input :: inputs => do
    step input
    runAll step inputs

/-- The state after some inputs. -/
def stateAfter (step : ι → StateM σ Unit) (inputs : List ι) (state : σ) : σ :=
  (runAll step inputs state).2

@[simp] theorem stateAfter_nil (step : ι → StateM σ Unit) (state : σ) :
    stateAfter step [] state = state := rfl

@[simp] theorem stateAfter_cons (step : ι → StateM σ Unit) (input : ι) (inputs : List ι)
    (state : σ) :
    stateAfter step (input :: inputs) state = stateAfter step inputs (step input state).2 := rfl

theorem stateAfter_append (step : ι → StateM σ Unit) (inputs more : List ι) (state : σ) :
    stateAfter step (inputs ++ more) state =
      stateAfter step more (stateAfter step inputs state) := by
  induction inputs generalizing state with
  | nil => rfl
  | cons input inputs ih => exact ih (step input state).2

/-- Every input of the run is handled in a state that allows it. -/
def Allowed (step : ι → StateM σ Unit) (allows : σ → ι → Prop) : List ι → σ → Prop
  | [], _ => True
  | input :: inputs, state =>
    allows state input ∧ Allowed step allows inputs (step input state).2

theorem allowed_append {step : ι → StateM σ Unit} {allows : σ → ι → Prop} {inputs more : List ι}
    {state : σ} :
    Allowed step allows (inputs ++ more) state ↔
      Allowed step allows inputs state ∧
        Allowed step allows more (stateAfter step inputs state) := by
  induction inputs generalizing state with
  | nil => exact ⟨fun h ↦ ⟨trivial, h⟩, fun h ↦ h.2⟩
  | cons input inputs ih => rw [List.cons_append, Allowed, ih, Allowed, stateAfter_cons, and_assoc]

theorem allowed_iff_forall_prefix {step : ι → StateM σ Unit} {allows : σ → ι → Prop}
    {inputs : List ι} {state : σ} :
    Allowed step allows inputs state ↔
      ∀ served input, served ++ [input] <+: inputs →
        allows (stateAfter step served state) input := by
  induction inputs generalizing state with
  | nil =>
    refine ⟨fun _ served input h ↦ ?_, fun _ ↦ trivial⟩
    exact absurd (List.prefix_nil.mp h) (List.append_ne_nil_of_right_ne_nil served (by simp))
  | cons first inputs ih =>
    rw [Allowed, ih]
    constructor
    · intro ⟨hfirst, hrest⟩ served input h
      cases served with
      | nil =>
        obtain ⟨rfl, -⟩ := List.cons_prefix_cons.mp h
        exact hfirst
      | cons other served =>
        obtain ⟨rfl, hserved⟩ := List.cons_prefix_cons.mp h
        exact hrest served input hserved
    · intro h
      refine ⟨h [] first ⟨inputs, rfl⟩, fun served input hserved ↦ ?_⟩
      exact h (first :: served) input (List.cons_prefix_cons.mpr ⟨rfl, hserved⟩)

/-- What each allowed step keeps holds after every beginning of an allowed run. -/
theorem invariant_of_allowed {step : ι → StateM σ Unit} {allows : σ → ι → Prop} {inv : σ → Prop}
    (hstep : ∀ input, Triple (fun state ↦ inv state ∧ allows state input) (step input)
      fun _ ↦ inv) {inputs : List ι} {state : σ} (hallowed : Allowed step allows inputs state)
    (hinv : inv state) {served : List ι} (hserved : served <+: inputs) :
    inv (stateAfter step served state) := by
  induction served generalizing inputs state with
  | nil => exact hinv
  | cons input served ih =>
    obtain ⟨rest, rfl⟩ := hserved
    exact ih hallowed.2 (hstep input state ⟨hinv, hallowed.1⟩) (List.prefix_append served rest)

/-- When a step between two states of the invariant must have been allowed, a run
that stays within the invariant is an allowed one. -/
theorem allowed_of_invariant {step : ι → StateM σ Unit} {allows : σ → ι → Prop} {inv : σ → Prop}
    (hstep : ∀ input state, inv state → inv (step input state).2 → allows state input)
    {inputs : List ι} {state : σ}
    (hinv : ∀ served, served <+: inputs → inv (stateAfter step served state)) :
    Allowed step allows inputs state := by
  induction inputs generalizing state with
  | nil => trivial
  | cons input inputs ih =>
    have hstart : inv state := hinv [] List.nil_prefix
    have hfirst : inv (step input state).2 := hinv [input] ⟨inputs, rfl⟩
    refine ⟨hstep input state hstart hfirst, ih fun served hserved ↦ ?_⟩
    exact hinv (input :: served) (List.cons_prefix_cons.mpr ⟨rfl, hserved⟩)

theorem allowed_congr {step : ι → StateM σ Unit} {allows other : σ → ι → Prop}
    (h : ∀ state input, allows state input ↔ other state input) {inputs : List ι} {state : σ} :
    Allowed step allows inputs state ↔ Allowed step other inputs state := by
  induction inputs generalizing state with
  | nil => exact Iff.rfl
  | cons input inputs ih => exact and_congr (h state input) ih

/-- Two conditions that are the same in the states of an invariant, which the steps
they allow keep, hold along the same runs. -/
theorem allowed_iff_of_invariant {step : ι → StateM σ Unit} {allows other : σ → ι → Prop}
    {inv : σ → Prop} (hsame : ∀ state input, inv state → (allows state input ↔ other state input))
    (hstep : ∀ input, Triple (fun state ↦ inv state ∧ allows state input) (step input)
      fun _ ↦ inv) {inputs : List ι} {state : σ} (hinv : inv state) :
    Allowed step allows inputs state ↔ Allowed step other inputs state := by
  induction inputs generalizing state with
  | nil => exact Iff.rfl
  | cons input inputs ih =>
    constructor
    · intro ⟨hfirst, hrest⟩
      exact ⟨(hsame state input hinv).mp hfirst, (ih (hstep input state ⟨hinv, hfirst⟩)).mp hrest⟩
    · intro ⟨hfirst, hrest⟩
      have hallows := (hsame state input hinv).mpr hfirst
      exact ⟨hallows, (ih (hstep input state ⟨hinv, hallows⟩)).mpr hrest⟩

/-- A condition on the inputs alone is met along a run when every input meets it. -/
theorem allowed_forall_iff {step : ι → StateM σ Unit} {allows : ι → Prop} {inputs : List ι}
    {state : σ} :
    Allowed step (fun _ ↦ allows) inputs state ↔ ∀ input ∈ inputs, allows input := by
  induction inputs generalizing state with
  | nil => exact ⟨fun _ _ h ↦ absurd h List.not_mem_nil, fun _ ↦ trivial⟩
  | cons input inputs ih => rw [List.forall_mem_cons, Allowed, ih]

/-- What each step keeps holds after every run. -/
theorem invariant_of_keeps {step : ι → StateM σ Unit} {inv : σ → Prop}
    (hstep : ∀ input, Keeps inv (step input)) (inputs : List ι) {state : σ} (hinv : inv state) :
    inv (stateAfter step inputs state) := by
  induction inputs generalizing state with
  | nil => exact hinv
  | cons input inputs ih => exact ih (hstep input state hinv)

end LibSshpp.Program
