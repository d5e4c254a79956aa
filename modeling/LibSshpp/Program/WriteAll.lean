import LibSshpp.Program.StateTriple
import Mathlib.Data.Nat.Notation

/-!
Writing a whole buffer through a call that may take only part of it. The loop
offers what is left until nothing is, and gives up on an error or on a call that
takes nothing.
-/

set_option autoImplicit false
set_option relaxedAutoImplicit false

namespace LibSshpp.Program

variable {σ α ε : Type}

/-- Offers the data until all of it is taken; every round that goes on takes at
least one element, so as many rounds as elements are enough. -/
def writeLoop (shortWrite : ε) (writeSome : List α → StateM σ (Except ε ℕ)) :
    ℕ → List α → StateM σ (Except ε Unit)
  | _, [] => pure (.ok ())
  | 0, _ :: _ => pure (.error shortWrite)
  | rounds + 1, first :: rest => do
    match ← writeSome (first :: rest) with
    | .error error => pure (.error error)
    | .ok 0 => pure (.error shortWrite)
    | .ok (taken + 1) => writeLoop shortWrite writeSome rounds (rest.drop taken)

def writeAll (shortWrite : ε) (writeSome : List α → StateM σ (Except ε ℕ)) (data : List α) :
    StateM σ (Except ε Unit) :=
  writeLoop shortWrite writeSome data.length data

/-- What a writer does is described by a relation that says which data takes one
state to another. Each call of the writer is for a prefix of the data it is
offered, of the length it reports; a call that fails is for nothing. -/
structure Accepts (writes : σ → List α → σ → Prop)
    (writeSome : List α → StateM σ (Except ε ℕ)) : Prop where
  refl : ∀ state, writes state [] state
  trans : ∀ {before middle after first second}, writes before first middle →
    writes middle second after → writes before (first ++ second) after
  of_ok : ∀ {data state taken after}, writeSome data state = (.ok taken, after) →
    taken ≤ data.length ∧ writes state (data.take taken) after
  of_error : ∀ {data state error after}, writeSome data state = (.error error, after) →
    writes state [] after

/-- What a call that is to write `data` has written: all of it on success, a proper
prefix on an error. -/
def Wrote (writes : σ → List α → σ → Prop) (before : σ) (data : List α)
    (result : Except ε Unit) (after : σ) : Prop :=
  match result with
  | .ok () => writes before data after
  | .error _ => ∃ taken < data.length, writes before (data.take taken) after

variable {writes : σ → List α → σ → Prop} {writeSome : List α → StateM σ (Except ε ℕ)}
  {shortWrite : ε}

/-- The loop succeeds only when everything was accepted, and an error leaves a
proper prefix behind. The induction is on the rounds, with the data still to be
written at most as long. -/
theorem Accepts.writeLoop_wrote (haccepts : Accepts writes writeSome) (rounds : ℕ) :
    ∀ (data : List α) (state : σ), data.length ≤ rounds →
      Wrote writes state data (writeLoop shortWrite writeSome rounds data state).1
        (writeLoop shortWrite writeSome rounds data state).2 := by
  induction rounds with
  | zero =>
    intro data state hdata
    obtain rfl : data = [] := List.length_eq_zero_iff.mp (by omega)
    exact haccepts.refl state
  | succ rounds ih =>
    intro data state hdata
    rcases data with _ | ⟨first, rest⟩
    · exact haccepts.refl state
    · rcases hwrite : writeSome (first :: rest) state with ⟨error | taken, after⟩
      · have hrun : writeLoop shortWrite writeSome (rounds + 1) (first :: rest) state =
            (.error error, after) := bind_of_eq hwrite
        rw [hrun]
        exact ⟨0, by simp, haccepts.of_error hwrite⟩
      · obtain ⟨htaken, hwritten⟩ := haccepts.of_ok hwrite
        cases taken with
        | zero =>
          have hrun : writeLoop shortWrite writeSome (rounds + 1) (first :: rest) state =
              (.error shortWrite, after) := bind_of_eq hwrite
          rw [hrun]
          exact ⟨0, by simp, hwritten⟩
        | succ taken =>
          have hrun : writeLoop shortWrite writeSome (rounds + 1) (first :: rest) state =
              writeLoop shortWrite writeSome rounds (rest.drop taken) after := bind_of_eq hwrite
          have hlater := ih (rest.drop taken) after (by
            simp only [List.length_drop, List.length_cons] at hdata ⊢
            omega)
          rw [hrun]
          rcases hresult : (writeLoop shortWrite writeSome rounds (rest.drop taken) after).1
            with error | _
          · rw [hresult] at hlater
            obtain ⟨more, hmore, hfinal⟩ := hlater
            rw [List.length_drop] at hmore
            refine ⟨taken + 1 + more, by simp only [List.length_cons]; omega, ?_⟩
            have hsum : (first :: rest).take (taken + 1 + more) =
                (first :: rest).take (taken + 1) ++ (rest.drop taken).take more := List.take_add
            rw [hsum]
            exact haccepts.trans hwritten hfinal
          · rw [hresult] at hlater
            have hsplit : (first :: rest).take (taken + 1) ++ rest.drop taken =
                first :: rest := List.take_append_drop (taken + 1) (first :: rest)
            change writes state (first :: rest) _
            rw [← hsplit]
            exact haccepts.trans hwritten hlater

theorem Accepts.writeAll_wrote (haccepts : Accepts writes writeSome) (data : List α)
    (state : σ) :
    Wrote writes state data (writeAll shortWrite writeSome data state).1
      (writeAll shortWrite writeSome data state).2 :=
  haccepts.writeLoop_wrote data.length data state le_rfl

/-- A call that takes at least one element each time takes all of them. -/
theorem writeLoop_succeeds {left : List α → σ → Prop}
    (hstep : ∀ data state, data ≠ [] → left data state →
      ∃ taken after, writeSome data state = (.ok (taken + 1), after) ∧
        left (data.drop (taken + 1)) after) (rounds : ℕ) :
    ∀ (data : List α) (state : σ), data.length ≤ rounds → left data state →
      ∃ after, writeLoop shortWrite writeSome rounds data state = (.ok (), after) ∧
        left [] after := by
  induction rounds with
  | zero =>
    intro data state hdata hleft
    obtain rfl : data = [] := List.length_eq_zero_iff.mp (by omega)
    exact ⟨state, rfl, hleft⟩
  | succ rounds ih =>
    intro data state hdata hleft
    rcases data with _ | ⟨first, rest⟩
    · exact ⟨state, rfl, hleft⟩
    · obtain ⟨taken, middle, hwrite, hmiddle⟩ :=
        hstep (first :: rest) state (List.cons_ne_nil first rest) hleft
      have hrun : writeLoop shortWrite writeSome (rounds + 1) (first :: rest) state =
          writeLoop shortWrite writeSome rounds (rest.drop taken) middle := bind_of_eq hwrite
      rw [hrun]
      refine ih (rest.drop taken) middle ?_ hmiddle
      simp only [List.length_drop, List.length_cons] at hdata ⊢
      omega

theorem writeAll_succeeds {left : List α → σ → Prop}
    (hstep : ∀ data state, data ≠ [] → left data state →
      ∃ taken after, writeSome data state = (.ok (taken + 1), after) ∧
        left (data.drop (taken + 1)) after) {data : List α} {state : σ} (h : left data state) :
    ∃ after, writeAll shortWrite writeSome data state = (.ok (), after) ∧ left [] after :=
  writeLoop_succeeds hstep data.length data state le_rfl h

end LibSshpp.Program
