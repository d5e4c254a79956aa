import Mathlib.Data.Nat.Init
import LibSshpp.Program.StateTriple

/-!
Runs whose inputs never end: what a schedule makes of a program is what its beginnings make of it.
-/

set_option autoImplicit false
set_option relaxedAutoImplicit false

namespace LibSshpp.Program

variable {σ ι : Type}

/-- The first inputs of a schedule. -/
def firstInputs (schedule : ℕ → ι) (count : ℕ) : List ι := (List.range count).map schedule

theorem firstInputs_succ (schedule : ℕ → ι) (count : ℕ) :
    firstInputs schedule (count + 1) = firstInputs schedule count ++ [schedule count] := by
  rw [firstInputs, List.range_succ, List.map_append]
  rfl

theorem firstInputs_add (schedule : ℕ → ι) (count more : ℕ) :
    firstInputs schedule (count + more) =
      firstInputs schedule count ++ firstInputs (fun time ↦ schedule (count + time)) more := by
  rw [firstInputs, List.range_add, List.map_append, List.map_map]
  rfl

theorem mem_firstInputs {schedule : ℕ → ι} {count : ℕ} {input : ι} :
    input ∈ firstInputs schedule count ↔ ∃ time < count, schedule time = input := by
  simp only [firstInputs, List.mem_map, List.mem_range]

/-- The state when the schedule has been followed for a while. -/
def stateAt (step : ι → StateM σ Unit) (schedule : ℕ → ι) (state : σ) (time : ℕ) : σ :=
  stateAfter step (firstInputs schedule time) state

theorem stateAt_succ (step : ι → StateM σ Unit) (schedule : ℕ → ι) (state : σ) (time : ℕ) :
    stateAt step schedule state (time + 1) =
      (step (schedule time) (stateAt step schedule state time)).2 := by
  rw [stateAt, firstInputs_succ, stateAfter_append]
  rfl

/-- What was not so at first, and is so at some time, came about in a step before. -/
theorem exists_step_of_stateAt {step : ι → StateM σ Unit} {schedule : ℕ → ι} {state : σ}
    (fact : σ → Prop) {time : ℕ} (hbefore : ¬ fact state)
    (hafter : fact (stateAt step schedule state time)) :
    ∃ earlier < time, ¬ fact (stateAt step schedule state earlier) ∧
      fact (step (schedule earlier) (stateAt step schedule state earlier)).2 := by
  induction time with
  | zero => exact absurd hafter hbefore
  | succ time ih =>
    by_cases hlast : fact (stateAt step schedule state time)
    · obtain ⟨earlier, hlt, hstep⟩ := ih hlast
      exact ⟨earlier, hlt.trans (Nat.lt_add_one time), hstep⟩
    · rw [stateAt_succ] at hafter
      exact ⟨time, Nat.lt_add_one time, hlast, hafter⟩

end LibSshpp.Program
