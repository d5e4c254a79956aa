import LibSshpp.Program.StateTriple

/-!
Two programs that are given the same inputs: a relation between their states that every step
keeps, or keeps exactly where the step is allowed, and inputs that one of them does not see.
-/

set_option autoImplicit false
set_option relaxedAutoImplicit false

namespace LibSshpp.Program

variable {σ τ ι κ : Type}

/-- What every step keeps relates the states after every run. -/
theorem related_of_steps {step : ι → StateM σ Unit} {other : ι → StateM τ Unit}
    {related : σ → τ → Prop}
    (hstep : ∀ input state twin, related state twin →
      related (step input state).2 (other input twin).2)
    (inputs : List ι) {state : σ} {twin : τ} (h : related state twin) :
    related (stateAfter step inputs state) (stateAfter other inputs twin) := by
  induction inputs generalizing state twin with
  | nil => exact h
  | cons input inputs ih => exact ih (hstep input state twin h)

/-- Where a step keeps the relation exactly if it is allowed, two runs stay related
exactly if every step is allowed. -/
theorem related_iff_allowed {step : ι → StateM σ Unit} {other : ι → StateM τ Unit}
    {related : σ → τ → Prop} {allows : σ → ι → Prop}
    (hstep : ∀ input state twin, related state twin →
      (related (step input state).2 (other input twin).2 ↔ allows state input))
    {inputs : List ι} {state : σ} {twin : τ} (h : related state twin) :
    (∀ served, served <+: inputs →
      related (stateAfter step served state) (stateAfter other served twin)) ↔
      Allowed step allows inputs state := by
  induction inputs generalizing state twin with
  | nil =>
    refine iff_of_true (fun served hserved ↦ ?_) trivial
    obtain rfl := List.prefix_nil.mp hserved
    exact h
  | cons input inputs ih =>
    constructor
    · intro hrelated
      have hfirst : related (step input state).2 (other input twin).2 :=
        hrelated [input] ⟨inputs, rfl⟩
      refine ⟨(hstep input state twin h).mp hfirst, (ih hfirst).mp fun served hserved ↦ ?_⟩
      exact hrelated (input :: served) (List.cons_prefix_cons.mpr ⟨rfl, hserved⟩)
    · rintro ⟨hallows, hrest⟩ served hserved
      cases served with
      | nil => exact h
      | cons first served =>
        obtain ⟨rfl, hrestServed⟩ := List.cons_prefix_cons.mp hserved
        exact (ih ((hstep first state twin h).mpr hallows)).mpr hrest served hrestServed

/-- A program that skips some inputs runs on the ones that are left. -/
theorem stateAfter_filterMap {step : κ → StateM σ Unit} (sees : ι → Option κ) (inputs : List ι)
    (state : σ) :
    stateAfter (fun input ↦ (sees input).elim (pure ()) step) inputs state =
      stateAfter step (inputs.filterMap sees) state := by
  induction inputs generalizing state with
  | nil => rfl
  | cons input inputs ih =>
    rw [stateAfter_cons, ih]
    cases hsees : sees input with
    | none =>
      rw [List.filterMap_cons_none hsees]
      rfl
    | some seen =>
      rw [List.filterMap_cons_some hsees, stateAfter_cons]
      rfl

end LibSshpp.Program
