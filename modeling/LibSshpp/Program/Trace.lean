import LibSshpp.Program.StateTriple

/-!
What a run does besides changing its state: the events of its steps, in their order, and what
must have happened before an event.
-/

set_option autoImplicit false
set_option relaxedAutoImplicit false

namespace LibSshpp.Program

variable {σ ι ε : Type}

/-! ### The events of a run -/

/-- The events of a run whose steps have the given ones. -/
def eventsOf (step : ι → StateM σ Unit) (event : ι → σ → List ε) : List ι → σ → List ε
  | [], _ => []
  | input :: inputs, state => event input state ++ eventsOf step event inputs (step input state).2

theorem eventsOf_append (step : ι → StateM σ Unit) (event : ι → σ → List ε)
    (inputs more : List ι) (state : σ) :
    eventsOf step event (inputs ++ more) state =
      eventsOf step event inputs state ++
        eventsOf step event more (stateAfter step inputs state) := by
  induction inputs generalizing state with
  | nil => rfl
  | cons input inputs ih =>
    rw [List.cons_append, eventsOf, ih, eventsOf, List.append_assoc]
    rfl

theorem eventsOf_concat (step : ι → StateM σ Unit) (event : ι → σ → List ε) (inputs : List ι)
    (input : ι) (state : σ) :
    eventsOf step event (inputs ++ [input]) state =
      eventsOf step event inputs state ++ event input (stateAfter step inputs state) := by
  rw [eventsOf_append, eventsOf, eventsOf, List.append_nil]

/-- An invariant of the state together with the events so far that each allowed step keeps. -/
theorem invariant_of_events {step : ι → StateM σ Unit} {event : ι → σ → List ε}
    {allows : σ → ι → Prop} {inv : σ → List ε → Prop}
    (hstep : ∀ input state trace, inv state trace → allows state input →
      inv (step input state).2 (trace ++ event input state))
    {inputs : List ι} {state : σ} (hallowed : Allowed step allows inputs state)
    (hinv : inv state []) {served : List ι} (hserved : served <+: inputs) :
    inv (stateAfter step served state) (eventsOf step event served state) := by
  have hgeneral : ∀ (trace : List ε) (state : σ) (inputs : List ι),
      Allowed step allows inputs state → inv state trace → served <+: inputs →
        inv (stateAfter step served state) (trace ++ eventsOf step event served state) := by
    clear hinv hallowed hserved
    induction served with
    | nil =>
      intro trace state inputs _ hinv _
      rw [eventsOf, List.append_nil]
      exact hinv
    | cons input served ih =>
      rintro trace state _ hallowed hinv ⟨rest, rfl⟩
      rw [eventsOf, ← List.append_assoc]
      exact ih _ _ _ hallowed.2 (hstep input state trace hinv hallowed.1)
        (List.prefix_append served rest)
  exact hgeneral [] state inputs hallowed hinv hserved

/-! ### What comes before an event -/

/-- Whenever the event happens, what happened before it meets the condition. -/
def Preceded (event : ε) (condition : List ε → Prop) (trace : List ε) : Prop :=
  ∀ before, before ++ [event] <+: trace → condition before

variable {event : ε} {condition : List ε → Prop}

theorem preceded_of_notMem {trace : List ε} (h : event ∉ trace) :
    Preceded event condition trace := by
  intro before hbefore
  exact absurd (hbefore.subset (by simp)) h

theorem preceded_append {trace more : List ε} :
    Preceded event condition (trace ++ more) ↔ Preceded event condition trace ∧
      Preceded event (fun before ↦ condition (trace ++ before)) more := by
  constructor
  · intro h
    refine ⟨fun before hbefore ↦ h before (hbefore.trans (List.prefix_append trace more)),
      fun before hbefore ↦ h (trace ++ before) ?_⟩
    rw [List.append_assoc]
    exact (List.prefix_append_right_inj trace).mpr hbefore
  · rintro ⟨htrace, hmore⟩ before hbefore
    rcases List.prefix_or_prefix_of_prefix hbefore (List.prefix_append trace more) with
      hearly | hlate
    · exact htrace before hearly
    · rcases List.prefix_concat_iff.mp hlate with rfl | ⟨rest, rfl⟩
      · exact htrace before List.prefix_rfl
      · rw [List.append_assoc] at hbefore
        exact hmore rest ((List.prefix_append_right_inj trace).mp hbefore)

theorem preceded_cons_of_ne {first : ε} {trace : List ε} (h : first ≠ event) :
    Preceded event condition (first :: trace) ↔
      Preceded event (fun before ↦ condition (first :: before)) trace := by
  rw [← List.singleton_append, preceded_append]
  exact and_iff_right (preceded_of_notMem fun hmem ↦ h (List.mem_singleton.mp hmem).symm)

theorem preceded_singleton : Preceded event condition [event] ↔ condition [] := by
  constructor
  · exact fun h ↦ h [] List.prefix_rfl
  · intro h before hbefore
    rcases List.prefix_concat_iff.mp (hbefore.trans (by rfl : [event] <+: [] ++ [event])) with
      heq | hnil
    · rwa [List.append_cancel_right heq]
    · exact absurd (List.prefix_nil.mp hnil) (List.append_ne_nil_of_right_ne_nil before (by simp))

end LibSshpp.Program
