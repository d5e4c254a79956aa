import Mathlib.Data.List.GetD
import Mathlib.Tactic.SplitIfs

/-!
Writes at offsets of a sequence. A write past the end fills the gap; writes to
ranges that do not overlap may be performed in any order, and writes that follow
one another without a gap are one write of their data.
-/

set_option autoImplicit false
set_option relaxedAutoImplicit false

namespace LibSshpp.Program

variable {α : Type}

/-- The first `offset` cells of a sequence, the missing ones filled. -/
def takeFilled (filler : α) (content : List α) (offset : ℕ) : List α :=
  content.take offset ++ List.replicate (offset - content.length) filler

/-- The sequence after `data` was written at an offset. A write of nothing changes
nothing, also past the end. -/
def patch (filler : α) (content : List α) (offset : ℕ) (data : List α) : List α :=
  if data = [] then content
  else takeFilled filler content offset ++ data ++ content.drop (offset + data.length)

/-! ### Cells -/

theorem length_takeFilled (filler : α) (content : List α) (offset : ℕ) :
    (takeFilled filler content offset).length = offset := by
  rw [takeFilled, List.length_append, List.length_take, List.length_replicate]
  omega

theorem getD_takeFilled (filler : α) (content : List α) {offset index : ℕ} (h : index < offset) :
    (takeFilled filler content offset).getD index filler = content.getD index filler := by
  by_cases hinside : index < content.length
  · have htaken : index < (content.take offset).length := by
      rw [List.length_take]
      omega
    rw [takeFilled, List.getD_append _ _ _ _ htaken, List.getD_eq_getElem _ _ htaken,
      List.getD_eq_getElem _ _ hinside, List.getElem_take]
  · have htaken : (content.take offset).length ≤ index := by
      rw [List.length_take]
      omega
    have hfilled : index - (content.take offset).length < offset - content.length := by
      rw [List.length_take]
      omega
    rw [takeFilled, List.getD_append_right _ _ _ _ htaken, List.getD_replicate filler hfilled,
      List.getD_eq_default _ _ (by omega)]

theorem getD_drop (filler : α) (content : List α) (count index : ℕ) :
    (content.drop count).getD index filler = content.getD (count + index) filler := by
  rw [List.getD_eq_getElem?_getD, List.getD_eq_getElem?_getD, List.getElem?_drop]

theorem length_patch (filler : α) (content data : List α) (offset : ℕ) :
    (patch filler content offset data).length =
      if data = [] then content.length else max content.length (offset + data.length) := by
  unfold patch
  split_ifs
  · rfl
  · rw [List.length_append, List.length_append, length_takeFilled, List.length_drop]
    omega

/-- A cell in the range of a write holds the data, any other one what it held,
where the cells past the end hold the filler. -/
theorem getD_patch (filler : α) (content data : List α) (offset index : ℕ) :
    (patch filler content offset data).getD index filler =
      if offset ≤ index ∧ index < offset + data.length then data.getD (index - offset) filler
      else content.getD index filler := by
  by_cases hdata : data = []
  · rw [patch, if_pos hdata, if_neg]
    rw [hdata, List.length_nil]
    omega
  have hlength := length_takeFilled filler content offset
  have hwritten : (takeFilled filler content offset ++ data).length = offset + data.length := by
    rw [List.length_append, hlength]
  rw [patch, if_neg hdata]
  by_cases hbefore : index < offset
  · rw [if_neg (by omega), List.append_assoc, List.getD_append _ _ _ _ (by omega),
      getD_takeFilled filler content hbefore]
  by_cases hinside : index < offset + data.length
  · rw [if_pos ⟨by omega, hinside⟩, List.getD_append _ _ _ _ (by omega),
      List.getD_append_right _ _ _ _ (by omega), hlength]
  · rw [if_neg (by omega), List.getD_append_right _ _ _ _ (by omega), getD_drop, hwritten,
      Nat.add_sub_cancel' (by omega)]

/-- Two sequences of one length with the same cells are equal. -/
theorem ext_getD (filler : α) {left right : List α} (hlength : left.length = right.length)
    (hcell : ∀ index, left.getD index filler = right.getD index filler) : left = right := by
  refine List.ext_getElem hlength fun index hleft hright ↦ ?_
  have hindex := hcell index
  rwa [List.getD_eq_getElem _ _ hleft, List.getD_eq_getElem _ _ hright] at hindex

/-! ### Two writes -/

/-- Writes to ranges that do not overlap commute. -/
theorem patch_comm (filler : α) (content first second : List α) {offset offset' : ℕ}
    (hapart : offset + first.length ≤ offset' ∨ offset' + second.length ≤ offset) :
    patch filler (patch filler content offset first) offset' second =
      patch filler (patch filler content offset' second) offset first := by
  refine ext_getD filler ?_ fun index ↦ ?_
  · simp only [length_patch]
    split_ifs <;> omega
  · simp only [getD_patch]
    split_ifs
    all_goals first | rfl | omega

/-- A write and one that starts where it ends are one write. -/
theorem patch_append (filler : α) (content first second : List α) (offset : ℕ) :
    patch filler (patch filler content offset first) (offset + first.length) second =
      patch filler content offset (first ++ second) := by
  refine ext_getD filler ?_ fun index ↦ ?_
  · simp only [length_patch, List.append_eq_nil_iff, List.length_append]
    rcases first with _ | ⟨byte, first⟩
    · rcases second with _ | ⟨byte, second⟩ <;> simp
    · rcases second with _ | ⟨byte', second⟩
      · simp
      · simp only [reduceCtorEq, and_self, if_false]
        omega
  · simp only [getD_patch, List.length_append]
    by_cases hfirst : index < offset + first.length
    · rw [if_neg (by omega)]
      by_cases hbefore : index < offset
      · rw [if_neg (by omega), if_neg (by omega)]
      · rw [if_pos ⟨by omega, hfirst⟩, if_pos ⟨by omega, by omega⟩,
          List.getD_append _ _ _ _ (by omega)]
    · by_cases hsecond : index < offset + first.length + second.length
      · rw [if_pos ⟨by omega, hsecond⟩, if_pos ⟨by omega, by omega⟩,
          List.getD_append_right _ _ _ _ (by omega), Nat.sub_sub]
      · rw [if_neg (by omega), if_neg (by omega), if_neg (by omega)]

/-- A write changes nothing exactly if what it writes is there already. -/
theorem patch_eq_self_iff (filler : α) (content data : List α) (offset : ℕ) :
    patch filler content offset data = content ↔ data <+: content.drop offset := by
  by_cases hdata : data = []
  · rw [patch, if_pos hdata, hdata]
    exact ⟨fun _ ↦ List.nil_prefix, fun _ ↦ rfl⟩
  have hpos : 0 < data.length := List.length_pos_iff.mpr hdata
  constructor
  · intro hsame
    have hlength := congrArg List.length hsame
    rw [length_patch, if_neg hdata] at hlength
    rw [patch, if_neg hdata, takeFilled, Nat.sub_eq_zero_of_le (by omega), List.replicate_zero,
      List.append_nil, List.append_assoc] at hsame
    have hwhole := hsame.trans (List.take_append_drop offset content).symm
    exact ⟨content.drop (offset + data.length), List.append_cancel_left hwhole⟩
  · rintro ⟨rest, hrest⟩
    have hlength := congrArg List.length hrest
    rw [List.length_append, List.length_drop] at hlength
    have hend : content.drop (offset + data.length) = rest := by
      rw [← List.drop_drop, ← hrest, List.drop_left]
    rw [patch, if_neg hdata, takeFilled, Nat.sub_eq_zero_of_le (by omega), List.replicate_zero,
      List.append_nil, hend, List.append_assoc, hrest, List.take_append_drop]

/-- A write leaves what is behind it. -/
theorem drop_patch (filler : α) (content data : List α) (offset : ℕ) :
    (patch filler content offset data).drop (offset + data.length) =
      content.drop (offset + data.length) := by
  by_cases hdata : data = []
  · rw [patch, if_pos hdata]
  · have hlength : (takeFilled filler content offset ++ data).length = offset + data.length := by
      rw [List.length_append, length_takeFilled]
    rw [patch, if_neg hdata, ← hlength, List.drop_left, hlength]

/-- What was written stands where it was written. -/
theorem range_patch (filler : α) (content data : List α) (offset : ℕ) :
    ((patch filler content offset data).drop offset).take data.length = data := by
  by_cases hdata : data = []
  · rw [hdata, List.length_nil, List.take_zero]
  · rw [patch, if_neg hdata, List.append_assoc,
      List.drop_left' (length_takeFilled filler content offset), List.take_left]

/-- The beginning of a write does as much as the whole exactly if what it leaves out is there
already. -/
theorem patch_take_eq_iff (filler : α) (content data : List α) (offset : ℕ) {count : ℕ}
    (hcount : count ≤ data.length) :
    patch filler content offset (data.take count) = patch filler content offset data ↔
      data.drop count <+: content.drop (offset + count) := by
  have hlength : (data.take count).length = count := List.length_take_of_le hcount
  have hwhole := patch_append filler content (data.take count) (data.drop count) offset
  have hbehind := drop_patch filler content (data.take count) offset
  rw [List.take_append_drop] at hwhole
  rw [hlength] at hwhole hbehind
  rw [← hwhole, eq_comm, patch_eq_self_iff, hbehind]

theorem patch_empty (filler : α) (data : List α) : patch filler [] 0 data = data := by
  by_cases hdata : data = []
  · rw [patch, if_pos hdata, hdata]
  · rw [patch, if_neg hdata, takeFilled, List.drop_nil, List.append_nil]
    rfl

/-! ### Any number of writes -/

structure Write (α : Type) where
  offset : ℕ
  data : List α
  deriving DecidableEq, Repr

/-- The sequence after the writes were performed in their order. -/
def applyAll (filler : α) (writes : List (Write α)) (content : List α) : List α :=
  writes.foldl (fun content write ↦ patch filler content write.offset write.data) content

/-- The writes follow one another without a gap from `start` to `stop`. -/
def Contiguous : ℕ → List (Write α) → ℕ → Prop
  | start, [], stop => start = stop
  | start, write :: writes, stop =>
    write.offset = start ∧ Contiguous (start + write.data.length) writes stop

/-- What the writes write, in their order. -/
def written (writes : List (Write α)) : List α := (writes.map Write.data).flatten

theorem written_append (left right : List (Write α)) :
    written (left ++ right) = written left ++ written right := by
  rw [written, List.map_append, List.flatten_append]
  rfl

theorem Contiguous.append {start middle stop : ℕ} {left right : List (Write α)}
    (hleft : Contiguous start left middle) (hright : Contiguous middle right stop) :
    Contiguous start (left ++ right) stop := by
  induction left generalizing start with
  | nil =>
    obtain rfl : start = middle := hleft
    exact hright
  | cons write left ih => exact ⟨hleft.1, ih hleft.2⟩

theorem Contiguous.le_offset {start stop : ℕ} {writes : List (Write α)}
    (h : Contiguous start writes stop) : ∀ write ∈ writes, start ≤ write.offset := by
  induction writes generalizing start with
  | nil => exact fun write hwrite ↦ absurd hwrite List.not_mem_nil
  | cons first writes ih =>
    intro write hwrite
    rcases List.mem_cons.mp hwrite with rfl | hlater
    · exact Nat.le_of_eq h.1.symm
    · exact Nat.le_trans (Nat.le_add_right _ _) (ih h.2 write hlater)

/-- Performed in their order, writes without a gap are one write. -/
theorem Contiguous.applyAll_eq {filler : α} {start stop : ℕ} {writes : List (Write α)}
    (h : Contiguous start writes stop) (content : List α) :
    applyAll filler writes content = patch filler content start (written writes) := by
  induction writes generalizing start content with
  | nil => rw [written, List.map_nil, List.flatten_nil, patch, if_pos rfl, applyAll, List.foldl_nil]
  | cons write writes ih =>
    obtain ⟨rfl, hlater⟩ := h
    have hfirst : applyAll filler (write :: writes) content =
        applyAll filler writes (patch filler content write.offset write.data) := rfl
    rw [hfirst, ih hlater, patch_append]
    rfl

/-- Any two of the writes are the same or do not overlap. -/
theorem Contiguous.apart {start stop : ℕ} {writes : List (Write α)}
    (h : Contiguous start writes stop) : ∀ left ∈ writes, ∀ right ∈ writes, left = right ∨
      left.offset + left.data.length ≤ right.offset ∨
      right.offset + right.data.length ≤ left.offset := by
  induction writes generalizing start with
  | nil => exact fun left hleft ↦ absurd hleft List.not_mem_nil
  | cons write writes ih =>
    obtain ⟨rfl, hlater⟩ := h
    intro left hleft right hright
    rcases List.mem_cons.mp hleft with rfl | hleft' <;>
      rcases List.mem_cons.mp hright with rfl | hright'
    · exact .inl rfl
    · exact .inr (.inl (hlater.le_offset right hright'))
    · exact .inr (.inr (hlater.le_offset left hleft'))
    · exact ih hlater left hleft' right hright'

/-- Writes without a gap are one write of their data, whatever the order they are
performed in. -/
theorem Contiguous.applyAll_perm {filler : α} {start stop : ℕ} {writes order : List (Write α)}
    (h : Contiguous start writes stop) (horder : writes.Perm order) (content : List α) :
    applyAll filler order content = patch filler content start (written writes) := by
  rw [← h.applyAll_eq]
  refine (horder.foldl_eq' (fun left hleft right hright content ↦ ?_) content).symm
  rcases h.apart left hleft right hright with rfl | hapart
  · rfl
  · exact patch_comm filler content left.data right.data hapart

end LibSshpp.Program
