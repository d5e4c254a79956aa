import LibSshpp.Program.WriteAll

/-!
Moving a whole buffer by calls that may each move only the front of what they are asked for.
The loop asks for what is left until nothing is, and gives up on an error or on a call that
moves nothing. What a call does is a relation between states and the part of the buffer that
was moved; the rules carry it from one call to the loop.
-/

set_option autoImplicit false
set_option relaxedAutoImplicit false

namespace LibSshpp.Program

variable {σ α ε : Type}

/-- A part of a memory: so many addresses from one on. -/
structure Span where
  start : ℕ
  length : ℕ
  deriving DecidableEq, Repr

namespace Span

/-- What is left of a span behind its first addresses. -/
def drop (span : Span) (count : ℕ) : Span := ⟨span.start + count, span.length - count⟩

def Within (span view : Span) : Prop :=
  view.start ≤ span.start ∧ span.start + span.length ≤ view.start + view.length

theorem drop_within {view : Span} {count : ℕ} (h : count ≤ view.length) :
    (view.drop count).Within view := by
  simp only [Within, drop]
  omega

end Span

/-- The loop, with so many addresses of the buffer already moved. -/
def transferLoop (nothing : ε) (transfer : Span → StateM σ (Except ε ℕ)) (view : Span)
    (moved : ℕ) : StateM σ (Except ε Unit) :=
  if moved < view.length then do
    match ← transfer (view.drop moved) with
    | .error error => pure (.error error)
    | .ok 0 => pure (.error nothing)
    | .ok (count + 1) => transferLoop nothing transfer view (moved + (count + 1))
  else pure (.ok ())
termination_by view.length - moved

variable {nothing : ε} {transfer : Span → StateM σ (Except ε ℕ)} {view : Span} {moved : ℕ}
  {state after : σ}

/-! ### The ways a round ends -/

theorem transferLoop_done (h : view.length ≤ moved) :
    transferLoop nothing transfer view moved state = (.ok (), state) := by
  rw [transferLoop, if_neg (by omega)]
  rfl

theorem transferLoop_error (h : moved < view.length) {error : ε}
    (hcall : transfer (view.drop moved) state = (.error error, after)) :
    transferLoop nothing transfer view moved state = (.error error, after) := by
  rw [transferLoop, if_pos h, bind_of_eq hcall]
  rfl

theorem transferLoop_nothing (h : moved < view.length)
    (hcall : transfer (view.drop moved) state = (.ok 0, after)) :
    transferLoop nothing transfer view moved state = (.error nothing, after) := by
  rw [transferLoop, if_pos h, bind_of_eq hcall]
  rfl

theorem transferLoop_more (h : moved < view.length) {count : ℕ}
    (hcall : transfer (view.drop moved) state = (.ok (count + 1), after)) :
    transferLoop nothing transfer view moved state =
      transferLoop nothing transfer view (moved + (count + 1)) after := by
  rw [transferLoop, if_pos h, bind_of_eq hcall]

/-! ### What the loop moves -/

/-- Nothing is moved by nothing, and a part and the part behind it are moved one after the
other. -/
structure Composes (moves : σ → Span → σ → Prop) : Prop where
  refl : ∀ state start, moves state ⟨start, 0⟩ state
  trans : ∀ {before middle after start count more}, moves before ⟨start, count⟩ middle →
    moves middle ⟨start + count, more⟩ after → moves before ⟨start, count + more⟩ after

/-- Each call moves the front of its span, as many addresses as it reports, and nothing when
it fails. -/
structure Moves (moves : σ → Span → σ → Prop) (transfer : Span → StateM σ (Except ε ℕ)) : Prop
    extends Composes moves where
  of_ok : ∀ {span state count after}, transfer span state = (.ok count, after) →
    count ≤ span.length ∧ moves state ⟨span.start, count⟩ after
  of_error : ∀ {span state error after}, transfer span state = (.error error, after) →
    moves state ⟨span.start, 0⟩ after

variable {moves : σ → Span → σ → Prop}

/-- The loop moves a front part of what was left, and succeeds exactly when that is all. The
recursion is the loop's own. -/
theorem Moves.transferLoop_moves (hmoves : Moves moves transfer) (nothing : ε) (view : Span)
    (moved : ℕ) (hmoved : moved ≤ view.length) (state : σ) :
    ∃ count ≤ view.length - moved,
      moves state ⟨view.start + moved, count⟩ (transferLoop nothing transfer view moved state).2 ∧
      ((transferLoop nothing transfer view moved state).1.isOk = true ↔
        count = view.length - moved) := by
  by_cases hleft : moved < view.length
  · rcases hcall : transfer (view.drop moved) state with ⟨error | count, after⟩
    · rw [transferLoop_error hleft hcall]
      exact ⟨0, Nat.zero_le _, hmoves.of_error hcall,
        iff_of_false Bool.false_ne_true (by omega)⟩
    · obtain ⟨hcount, hfront⟩ := hmoves.of_ok hcall
      change count ≤ view.length - moved at hcount
      cases count with
      | zero =>
        rw [transferLoop_nothing hleft hcall]
        exact ⟨0, Nat.zero_le _, hfront, iff_of_false Bool.false_ne_true (by omega)⟩
      | succ count =>
        rw [transferLoop_more hleft hcall]
        obtain ⟨more, hmore, hrest, hok⟩ := hmoves.transferLoop_moves nothing view
          (moved + (count + 1)) (by omega) after
        refine ⟨count + 1 + more, by omega, hmoves.trans hfront ?_, hok.trans (by omega)⟩
        rw [← Nat.add_assoc] at hrest
        exact hrest
  · rw [transferLoop_done (by omega)]
    exact ⟨0, Nat.zero_le _, hmoves.refl state _, iff_of_true rfl (by omega)⟩
termination_by view.length - moved

/-- What every call for a part of the buffer keeps, the loop keeps. -/
theorem transferLoop_keeps {inv : σ → Prop} (nothing : ε)
    (h : ∀ span : Span, span.Within view → Keeps inv (transfer span)) (moved : ℕ) :
    Keeps inv (transferLoop nothing transfer view moved) := by
  intro state hstate
  by_cases hleft : moved < view.length
  · have hnext := h (view.drop moved) (Span.drop_within hleft.le) state hstate
    rcases hcall : transfer (view.drop moved) state with ⟨error | _ | count, after⟩
    · rw [transferLoop_error hleft hcall]
      rw [hcall] at hnext
      exact hnext
    · rw [transferLoop_nothing hleft hcall]
      rw [hcall] at hnext
      exact hnext
    · rw [transferLoop_more hleft hcall]
      rw [hcall] at hnext
      exact transferLoop_keeps nothing h (moved + (count + 1)) after hnext
  · rw [transferLoop_done (by omega)]
    exact hstate
termination_by view.length - moved

/-- The loop makes no more calls than there were addresses left. -/
theorem transferLoop_calls (calls : σ → ℕ) (nothing : ε)
    (h : ∀ span state, calls (transfer span state).2 ≤ calls state + 1) (moved : ℕ) (state : σ) :
    calls (transferLoop nothing transfer view moved state).2 ≤
      calls state + (view.length - moved) := by
  by_cases hleft : moved < view.length
  · have hnext := h (view.drop moved) state
    rcases hcall : transfer (view.drop moved) state with ⟨error | _ | count, after⟩
    · rw [transferLoop_error hleft hcall]
      rw [hcall] at hnext
      change calls after ≤ _ at hnext
      change calls after ≤ _
      omega
    · rw [transferLoop_nothing hleft hcall]
      rw [hcall] at hnext
      change calls after ≤ _ at hnext
      change calls after ≤ _
      omega
    · rw [transferLoop_more hleft hcall]
      rw [hcall] at hnext
      change calls after ≤ _ at hnext
      have hrest := transferLoop_calls calls nothing h (moved + (count + 1)) after
      omega
  · rw [transferLoop_done (by omega)]
    exact Nat.le_add_right _ _
termination_by view.length - moved

/-! ### Two loops -/

/-- Calls that move the same, or both fail, and keep a relation between two states make loops
that both succeed or both fail, in related states. -/
theorem transferLoop_simulates {τ δ : Type} {related : σ → τ → Prop}
    {other : Span → StateM τ (Except δ ℕ)} {otherView : Span}
    (hlength : otherView.length = view.length) (nothing : ε) (otherNothing : δ)
    (hstep : ∀ moved state state', moved < view.length → related state state' →
      (transfer (view.drop moved) state).1.toOption =
          (other (otherView.drop moved) state').1.toOption ∧
        related (transfer (view.drop moved) state).2 (other (otherView.drop moved) state').2)
    (moved : ℕ) {state : σ} {state' : τ} (hrelated : related state state') :
    (transferLoop nothing transfer view moved state).1.isOk =
        (transferLoop otherNothing other otherView moved state').1.isOk ∧
      related (transferLoop nothing transfer view moved state).2
        (transferLoop otherNothing other otherView moved state').2 := by
  by_cases hleft : moved < view.length
  · have hleft' : moved < otherView.length := hlength ▸ hleft
    obtain ⟨hsame, hnext⟩ := hstep moved state state' hleft hrelated
    rcases hcall : transfer (view.drop moved) state with ⟨error | count, after⟩ <;>
      rcases hcall' : other (otherView.drop moved) state' with ⟨error' | count', after'⟩ <;>
      rw [hcall, hcall'] at hsame hnext
    · rw [transferLoop_error hleft hcall, transferLoop_error hleft' hcall']
      exact ⟨rfl, hnext⟩
    · cases hsame
    · cases hsame
    · obtain rfl : count = count' := Option.some.inj hsame
      cases count with
      | zero =>
        rw [transferLoop_nothing hleft hcall, transferLoop_nothing hleft' hcall']
        exact ⟨rfl, hnext⟩
      | succ count =>
        rw [transferLoop_more hleft hcall, transferLoop_more hleft' hcall']
        exact transferLoop_simulates hlength nothing otherNothing hstep (moved + (count + 1)) hnext
  · rw [transferLoop_done (by omega), transferLoop_done (by omega)]
    exact ⟨rfl, hrelated⟩
termination_by view.length - moved

/-! ### Writing a list -/

/-- Writing a whole list by calls that take part of it is this loop over the list's positions. -/
theorem writeAll_eq_transferLoop (shortWrite : ε) (writeSome : List α → StateM σ (Except ε ℕ))
    (data : List α) (state : σ) :
    writeAll shortWrite writeSome data state =
      transferLoop shortWrite (fun span ↦ writeSome ((data.drop span.start).take span.length))
        ⟨0, data.length⟩ 0 state := by
  suffices hloop : ∀ (rounds moved : ℕ) (state : σ), data.length - moved ≤ rounds →
      writeLoop shortWrite writeSome rounds (data.drop moved) state =
        transferLoop shortWrite (fun span ↦ writeSome ((data.drop span.start).take span.length))
          ⟨0, data.length⟩ moved state by
    exact hloop data.length 0 state (Nat.sub_le _ _)
  intro rounds
  induction rounds with
  | zero =>
    intro moved state hmoved
    rw [List.drop_eq_nil_of_le (by omega), transferLoop_done (show data.length ≤ moved by omega)]
    rfl
  | succ rounds ih =>
    intro moved state hmoved
    rcases hdata : data.drop moved with _ | ⟨first, rest⟩
    · rw [transferLoop_done (List.drop_eq_nil_iff.mp hdata)]
      rfl
    · have hlength : (first :: rest).length = data.length - moved := by
        rw [← hdata, List.length_drop]
      have hleft : moved < (⟨0, data.length⟩ : Span).length := by
        have hcons : 1 ≤ (first :: rest).length := by simp
        change moved < data.length
        omega
      have hoffer : (data.drop (0 + moved)).take (data.length - moved) = first :: rest := by
        rw [Nat.zero_add, hdata, ← hlength, List.take_length]
      rcases hcall : writeSome (first :: rest) state with ⟨error | _ | count, after⟩
      · rw [transferLoop_error hleft (hoffer ▸ hcall)]
        exact bind_of_eq hcall
      · rw [transferLoop_nothing hleft (hoffer ▸ hcall)]
        exact bind_of_eq hcall
      · rw [transferLoop_more hleft (hoffer ▸ hcall), ← ih _ _ (by omega)]
        have hrest : data.drop (moved + (count + 1)) = rest.drop count := by
          rw [← List.drop_drop, hdata, List.drop_succ_cons]
        rw [hrest]
        exact bind_of_eq hcall

end LibSshpp.Program
