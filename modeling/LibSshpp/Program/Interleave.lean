import Mathlib.Data.List.Basic

/-!
Merges of two lists that keep the order of each.
-/

set_option autoImplicit false
set_option relaxedAutoImplicit false

namespace LibSshpp.Program

variable {α : Type}

/-- The third list takes its elements from the first two, in the order they have there. -/
inductive Interleave : List α → List α → List α → Prop
  | nil : Interleave [] [] []
  | fromLeft {x : α} {left right merged : List α} (rest : Interleave left right merged) :
      Interleave (x :: left) right (x :: merged)
  | fromRight {x : α} {left right merged : List α} (rest : Interleave left right merged) :
      Interleave left (x :: right) (x :: merged)

namespace Interleave

theorem length_eq {left right merged : List α} (h : Interleave left right merged) :
    merged.length = left.length + right.length := by
  induction h with
  | nil => rfl
  | fromLeft _ ih => rw [List.length_cons, List.length_cons, ih, Nat.add_right_comm]
  | fromRight _ ih => rw [List.length_cons, List.length_cons, ih, Nat.add_assoc]

/-- More of the left list at the end. -/
theorem append_left {left right merged : List α} (h : Interleave left right merged)
    (more : List α) : Interleave (left ++ more) right (merged ++ more) := by
  induction h with
  | nil =>
    induction more with
    | nil => exact .nil
    | cons x more ih => exact .fromLeft ih
  | fromLeft _ ih => exact .fromLeft ih
  | fromRight _ ih => exact .fromRight ih

/-- More of the right list at the end. -/
theorem append_right {left right merged : List α} (h : Interleave left right merged)
    (more : List α) : Interleave left (right ++ more) (merged ++ more) := by
  induction h with
  | nil =>
    induction more with
    | nil => exact .nil
    | cons x more ih => exact .fromRight ih
  | fromLeft _ ih => exact .fromLeft ih
  | fromRight _ ih => exact .fromRight ih

theorem eq_left {left merged : List α} (h : Interleave left [] merged) : merged = left := by
  induction left generalizing merged with
  | nil =>
    cases h with
    | nil => rfl
  | cons x left ih =>
    cases h with
    | fromLeft rest => rw [ih rest]

theorem eq_right {right merged : List α} (h : Interleave [] right merged) : merged = right := by
  induction right generalizing merged with
  | nil =>
    cases h with
    | nil => rfl
  | cons x right ih =>
    cases h with
    | fromRight rest => rw [ih rest]

end Interleave

end LibSshpp.Program
