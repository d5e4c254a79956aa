import Mathlib.Data.List.Infix
import Mathlib.Data.Nat.Notation

/-!
Collecting a sequence of pieces under a cap that is only compared with what has been
collected: either a piece is dropped once the cap is reached, or the collecting ends
there. Neither looks at the length of the piece, so what is collected stays under the
cap only where the pieces happen to break at it.
-/

set_option autoImplicit false
set_option relaxedAutoImplicit false

namespace LibSshpp.Program

variable {α : Type}

/-- One more piece, unless the cap is reached. -/
def keepBelow (cap : ℕ) (kept piece : List α) : List α :=
  if kept.length < cap then kept ++ piece else kept

/-- The pieces one after the other, up to the one with which the cap is reached. -/
def collectUntil (cap : ℕ) (kept : List α) : List (List α) → List α
  | [] => kept
  | piece :: pieces =>
    if cap ≤ (kept ++ piece).length then kept ++ piece
    else collectUntil cap (kept ++ piece) pieces

/-- There is room for all the pieces, or some of them take exactly the room there is. -/
def Fits (room : ℕ) (pieces : List (List α)) : Prop :=
  pieces.flatten.length ≤ room ∨ ∃ before, before <+: pieces ∧ before.flatten.length = room

theorem fits_zero (pieces : List (List α)) : Fits 0 pieces :=
  .inr ⟨[], List.nil_prefix, rfl⟩

theorem fits_nil (room : ℕ) : Fits room ([] : List (List α)) :=
  .inl (Nat.zero_le room)

theorem fits_cons {room : ℕ} (hpos : 0 < room) (piece : List α) (pieces : List (List α)) :
    Fits room (piece :: pieces) ↔ piece.length ≤ room ∧ Fits (room - piece.length) pieces := by
  constructor
  · rintro (hall | ⟨before, hbefore, htotal⟩)
    · rw [List.flatten_cons, List.length_append] at hall
      exact ⟨by omega, .inl (by omega)⟩
    · cases before with
      | nil => exact absurd htotal hpos.ne
      | cons first before =>
        obtain ⟨rfl, hrest⟩ := List.cons_prefix_cons.mp hbefore
        rw [List.flatten_cons, List.length_append] at htotal
        exact ⟨by omega, .inr ⟨before, hrest, by omega⟩⟩
  · rintro ⟨hpiece, hall | ⟨before, hbefore, htotal⟩⟩
    · refine .inl ?_
      rw [List.flatten_cons, List.length_append]
      omega
    · refine .inr ⟨piece :: before, List.cons_prefix_cons.mpr ⟨rfl, hbefore⟩, ?_⟩
      rw [List.flatten_cons, List.length_append]
      omega

theorem keepBelow_nil {α : Type} (cap : ℕ) (kept : List α) : keepBelow cap kept [] = kept := by
  rw [keepBelow, List.append_nil, ite_self]

theorem length_le_foldl_keepBelow (cap : ℕ) (pieces : List (List α)) (kept : List α) :
    kept.length ≤ (pieces.foldl (keepBelow cap) kept).length := by
  induction pieces generalizing kept with
  | nil => exact le_rfl
  | cons piece pieces ih =>
    refine le_trans ?_ (ih (keepBelow cap kept piece))
    unfold keepBelow
    split_ifs
    · rw [List.length_append]
      exact Nat.le_add_right _ _
    · exact le_rfl

/-- Dropping pieces once the cap is reached keeps to it exactly if the pieces fit. -/
theorem foldl_keepBelow_le_iff {cap : ℕ} (pieces : List (List α)) {kept : List α}
    (hkept : kept.length ≤ cap) :
    (pieces.foldl (keepBelow cap) kept).length ≤ cap ↔ Fits (cap - kept.length) pieces := by
  induction pieces generalizing kept with
  | nil => exact iff_of_true hkept (fits_nil _)
  | cons piece pieces ih =>
    rw [List.foldl_cons]
    rcases hkept.eq_or_lt with hfull | hroom
    · have hsame : keepBelow cap kept piece = kept := if_neg (by omega)
      rw [hsame, ih hkept, hfull, Nat.sub_self]
      exact iff_of_true (fits_zero _) (fits_zero _)
    · have hnext : keepBelow cap kept piece = kept ++ piece := if_pos hroom
      rw [hnext, fits_cons (by omega)]
      by_cases hpiece : piece.length ≤ cap - kept.length
      · rw [ih (by rw [List.length_append]; omega), List.length_append, Nat.sub_add_eq,
          and_iff_right hpiece]
      · refine iff_of_false (fun hle ↦ hpiece ?_) fun h ↦ hpiece h.1
        have hgrown := length_le_foldl_keepBelow cap pieces (kept ++ piece)
        rw [List.length_append] at hgrown
        omega

/-- Collecting up to the cap keeps to it exactly if the pieces fit. -/
theorem collectUntil_le_iff {cap : ℕ} (pieces : List (List α)) {kept : List α}
    (hkept : kept.length < cap) :
    (collectUntil cap kept pieces).length ≤ cap ↔ Fits (cap - kept.length) pieces := by
  induction pieces generalizing kept with
  | nil => exact iff_of_true hkept.le (fits_nil _)
  | cons piece pieces ih =>
    rw [collectUntil, fits_cons (by omega)]
    by_cases hreached : cap ≤ (kept ++ piece).length
    · rw [if_pos hreached]
      rw [List.length_append] at hreached ⊢
      constructor
      · intro hle
        refine ⟨by omega, ?_⟩
        have hfull : cap - kept.length - piece.length = 0 := by omega
        rw [hfull]
        exact fits_zero _
      · rintro ⟨hpiece, -⟩
        omega
    · rw [if_neg hreached, ih (Nat.lt_of_not_le hreached)]
      rw [List.length_append] at hreached ⊢
      rw [Nat.sub_add_eq, and_iff_right (by omega)]

end LibSshpp.Program
