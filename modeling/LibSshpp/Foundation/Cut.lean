import Mathlib.Data.List.Basic

/-!
Cutting a list at the first or at the last occurrence of an element, as `find` and `rfind`
with the two `substr` around them cut a string.
-/

set_option autoImplicit false
set_option relaxedAutoImplicit false

namespace LibSshpp

variable {α : Type} [DecidableEq α]

/-- What is before the first occurrence and what is behind it. -/
def cutFirst (sep : α) : List α → Option (List α × List α)
  | [] => none
  | a :: text =>
    if a = sep then some ([], text)
    else (cutFirst sep text).map fun cut ↦ (a :: cut.1, cut.2)

/-- What is before the last occurrence and what is behind it. -/
def cutLast (sep : α) (text : List α) : Option (List α × List α) :=
  (cutFirst sep text.reverse).map fun cut ↦ (cut.2.reverse, cut.1.reverse)

theorem cutFirst_append {sep : α} {before : List α} (h : sep ∉ before) (behind : List α) :
    cutFirst sep (before ++ sep :: behind) = some (before, behind) := by
  induction before with
  | nil => exact if_pos rfl
  | cons a before ih =>
    rw [List.mem_cons, not_or] at h
    rw [List.cons_append, cutFirst, if_neg (Ne.symm h.1), ih h.2]
    rfl

theorem cutFirst_eq_none_iff {sep : α} {text : List α} : cutFirst sep text = none ↔ sep ∉ text := by
  induction text with
  | nil => exact iff_of_true rfl List.not_mem_nil
  | cons a text ih =>
    rw [cutFirst, List.mem_cons, not_or]
    by_cases ha : a = sep
    · rw [if_pos ha]
      exact iff_of_false (nomatch ·) fun h ↦ h.1 ha.symm
    · rw [if_neg ha, Option.map_eq_none_iff, ih, and_iff_right (Ne.symm ha)]

theorem cutFirst_eq_some_iff {sep : α} {text before behind : List α} :
    cutFirst sep text = some (before, behind) ↔ text = before ++ sep :: behind ∧ sep ∉ before := by
  constructor
  · intro h
    have hmem : sep ∈ text := by
      by_contra hnone
      rw [cutFirst_eq_none_iff.mpr hnone] at h
      exact nomatch h
    obtain ⟨first, rest, rfl, hfirst⟩ := List.eq_append_cons_of_mem hmem
    rw [cutFirst_append hfirst] at h
    obtain ⟨rfl, rfl⟩ := Prod.mk.inj (Option.some.inj h)
    exact ⟨rfl, hfirst⟩
  · rintro ⟨rfl, hbefore⟩
    exact cutFirst_append hbefore behind

theorem cutLast_append {sep : α} {behind : List α} (h : sep ∉ behind) (before : List α) :
    cutLast sep (before ++ sep :: behind) = some (before, behind) := by
  have hreverse : (before ++ sep :: behind).reverse = behind.reverse ++ sep :: before.reverse := by
    rw [List.reverse_append, List.reverse_cons, List.append_assoc]
    rfl
  rw [cutLast, hreverse, cutFirst_append (by rwa [List.mem_reverse])]
  simp

theorem cutLast_eq_none_iff {sep : α} {text : List α} : cutLast sep text = none ↔ sep ∉ text := by
  rw [cutLast, Option.map_eq_none_iff, cutFirst_eq_none_iff, List.mem_reverse]

theorem cutLast_eq_some_iff {sep : α} {text before behind : List α} :
    cutLast sep text = some (before, behind) ↔ text = before ++ sep :: behind ∧ sep ∉ behind := by
  constructor
  · intro h
    obtain ⟨cut, hcut, heq⟩ := Option.map_eq_some_iff.mp h
    obtain ⟨htext, hbehind⟩ := cutFirst_eq_some_iff.mp hcut
    obtain ⟨rfl, rfl⟩ := Prod.mk.inj heq
    refine ⟨?_, by rwa [List.mem_reverse]⟩
    rw [← text.reverse_reverse, htext, List.reverse_append, List.reverse_cons, List.append_assoc]
    rfl
  · rintro ⟨rfl, hbehind⟩
    exact cutLast_append hbehind before

end LibSshpp
