import Mathlib.Data.List.TakeWhile
import Mathlib.Tactic.SplitIfs

/-!
The lines of a text and the fields of a line. A line ends with a newline, which is not part
of it; what is behind the last newline is a line unless it is empty, as `std::getline` has it.
Fields are separated by any number of separators, as `operator>>` reads them.
-/

set_option autoImplicit false
set_option relaxedAutoImplicit false

namespace LibSshpp

variable {α : Type}

/-! ### Lines -/

/-- One more element in front of the first line. -/
def consFirst (a : α) : List (List α) → List (List α)
  | [] => [[a]]
  | line :: lines => (a :: line) :: lines

def linesOf [DecidableEq α] (newline : α) : List α → List (List α)
  | [] => []
  | a :: text =>
    if a = newline then [] :: linesOf newline text else consFirst a (linesOf newline text)

/-- The text has no line that is begun and not ended. -/
def Terminated (newline : α) (text : List α) : Prop :=
  ∀ last ∈ text.getLast?, last = newline

instance [DecidableEq α] (newline : α) (text : List α) : Decidable (Terminated newline text) :=
  inferInstanceAs (Decidable (∀ last ∈ text.getLast?, last = newline))

theorem terminated_cons {newline a : α} {text : List α} (h : text ≠ []) :
    Terminated newline (a :: text) ↔ Terminated newline text := by
  obtain ⟨b, rest, rfl⟩ := List.exists_cons_of_ne_nil h
  rw [Terminated, List.getLast?_cons_cons]
  exact Iff.rfl

theorem terminated_singleton {newline a : α} : Terminated newline [a] ↔ a = newline := by
  constructor
  · intro h
    exact h a rfl
  · rintro rfl last hlast
    exact (Option.some.inj hlast).symm

theorem consFirst_ne_nil (a : α) (lines : List (List α)) : consFirst a lines ≠ [] := by
  cases lines with
  | nil => exact List.cons_ne_nil _ _
  | cons line lines => exact List.cons_ne_nil _ _

theorem consFirst_append (a : α) {lines : List (List α)} (h : lines ≠ []) (more : List (List α)) :
    consFirst a (lines ++ more) = consFirst a lines ++ more := by
  obtain ⟨line, lines, rfl⟩ := List.exists_cons_of_ne_nil h
  rfl

theorem consFirst_injective (a : α) {lines lines' : List (List α)} (h : lines ≠ [])
    (h' : lines' ≠ []) (heq : consFirst a lines = consFirst a lines') : lines = lines' := by
  obtain ⟨line, lines, rfl⟩ := List.exists_cons_of_ne_nil h
  obtain ⟨line', lines', rfl⟩ := List.exists_cons_of_ne_nil h'
  obtain ⟨hfirst, hrest⟩ := List.cons.inj heq
  rw [(List.cons.inj hfirst).2, hrest]

section Lines

variable [DecidableEq α] {newline : α}

theorem linesOf_cons_self (text : List α) :
    linesOf newline (newline :: text) = [] :: linesOf newline text := if_pos rfl

theorem linesOf_cons_of_ne {a : α} (h : a ≠ newline) (text : List α) :
    linesOf newline (a :: text) = consFirst a (linesOf newline text) := if_neg h

theorem linesOf_eq_nil_iff {text : List α} : linesOf newline text = [] ↔ text = [] := by
  cases text with
  | nil => exact iff_of_true rfl rfl
  | cons a text =>
    refine iff_of_false ?_ (List.cons_ne_nil _ _)
    by_cases ha : a = newline
    · rw [ha, linesOf_cons_self]
      exact List.cons_ne_nil _ _
    · rw [linesOf_cons_of_ne ha]
      exact consFirst_ne_nil a _

/-- Behind a text that is ended, another one has its own lines. -/
theorem linesOf_append {text : List α} (h : Terminated newline text) (more : List α) :
    linesOf newline (text ++ more) = linesOf newline text ++ linesOf newline more := by
  induction text with
  | nil => rfl
  | cons a text ih =>
    rw [List.cons_append]
    by_cases htext : text = []
    · subst htext
      rw [terminated_singleton.mp h, linesOf_cons_self, linesOf_cons_self]
      rfl
    · have hlines := ih ((terminated_cons htext).mp h)
      by_cases ha : a = newline
      · rw [ha, linesOf_cons_self, linesOf_cons_self, hlines]
        rfl
      · rw [linesOf_cons_of_ne ha, linesOf_cons_of_ne ha, hlines]
        exact consFirst_append a (mt linesOf_eq_nil_iff.mp htext) _

/-- Behind a line that is not ended only a newline leaves the lines as they are. -/
theorem head?_of_linesOf_append {text more : List α} {lines : List (List α)} (hmore : more ≠ [])
    (hopen : ¬ Terminated newline text)
    (h : linesOf newline (text ++ more) = linesOf newline text ++ lines) :
    more.head? = some newline := by
  induction text with
  | nil => exact absurd (fun _ hlast ↦ nomatch hlast) hopen
  | cons a text ih =>
    rw [List.cons_append] at h
    by_cases htext : text = []
    · subst htext
      obtain ⟨b, more, rfl⟩ := List.exists_cons_of_ne_nil hmore
      by_contra hb
      -- the line goes on, so the first line is longer than it was
      rw [List.nil_append, linesOf_cons_of_ne (mt terminated_singleton.mpr hopen),
        linesOf_cons_of_ne (mt terminated_singleton.mpr hopen),
        linesOf_cons_of_ne (mt (congrArg some) hb)] at h
      cases hlines : linesOf newline more with
      | nil =>
        rw [hlines] at h
        exact nomatch (List.cons.inj h).1
      | cons line rest =>
        rw [hlines] at h
        exact nomatch (List.cons.inj h).1
    · refine ih (mt (terminated_cons htext).mpr hopen) ?_
      by_cases ha : a = newline
      · rw [ha, linesOf_cons_self, linesOf_cons_self] at h
        exact (List.cons.inj h).2
      · have hlines : linesOf newline text ≠ [] := mt linesOf_eq_nil_iff.mp htext
        rw [linesOf_cons_of_ne ha, linesOf_cons_of_ne ha, ← consFirst_append a hlines] at h
        refine consFirst_injective a ?_ (List.append_ne_nil_of_left_ne_nil hlines _) h
        exact mt linesOf_eq_nil_iff.mp (List.append_ne_nil_of_left_ne_nil htext _)

theorem linesOf_of_notMem {line : List α} (h : newline ∉ line) (hline : line ≠ []) :
    linesOf newline line = [line] := by
  induction line with
  | nil => exact absurd rfl hline
  | cons a line ih =>
    rw [List.mem_cons, not_or] at h
    rw [linesOf_cons_of_ne (Ne.symm h.1)]
    by_cases hrest : line = []
    · rw [hrest]
      rfl
    · rw [ih h.2 hrest]
      rfl

theorem linesOf_concat {line : List α} (h : newline ∉ line) :
    linesOf newline (line ++ [newline]) = [line] := by
  induction line with
  | nil => exact linesOf_cons_self []
  | cons a line ih =>
    rw [List.mem_cons, not_or] at h
    rw [List.cons_append, linesOf_cons_of_ne (Ne.symm h.1), ih h.2]
    rfl

/-- A text of one line is that line, with the newline that ends it or without. -/
theorem eq_of_linesOf_singleton {text line : List α} (h : linesOf newline text = [line]) :
    newline ∉ line ∧ (text = line ∨ text = line ++ [newline]) := by
  induction text generalizing line with
  | nil => exact nomatch h
  | cons a text ih =>
    by_cases ha : a = newline
    · rw [ha, linesOf_cons_self] at h
      obtain ⟨rfl, hlines⟩ := List.cons.inj h
      rw [ha, linesOf_eq_nil_iff.mp hlines]
      exact ⟨List.not_mem_nil, .inr rfl⟩
    · rw [linesOf_cons_of_ne ha] at h
      cases hlines : linesOf newline text with
      | nil =>
        rw [hlines] at h
        obtain rfl : [a] = line := (List.cons.inj h).1
        rw [linesOf_eq_nil_iff.mp hlines, List.mem_singleton]
        exact ⟨Ne.symm ha, .inl rfl⟩
      | cons first rest =>
        rw [hlines] at h
        obtain ⟨rfl, rfl⟩ : a :: first = line ∧ rest = [] := List.cons.inj h
        obtain ⟨hfirst, htext⟩ := ih hlines
        rw [List.mem_cons, not_or, List.cons_append]
        exact ⟨⟨Ne.symm ha, hfirst⟩, htext.imp (congrArg _) (congrArg _)⟩

theorem notMem_of_mem_linesOf {text line : List α} (h : line ∈ linesOf newline text) :
    newline ∉ line := by
  induction text generalizing line with
  | nil => exact nomatch h
  | cons a text ih =>
    by_cases ha : a = newline
    · rw [ha, linesOf_cons_self, List.mem_cons] at h
      rcases h with rfl | h
      · exact List.not_mem_nil
      · exact ih h
    · rw [linesOf_cons_of_ne ha] at h
      cases hlines : linesOf newline text with
      | nil =>
        rw [hlines] at h
        rw [List.mem_singleton.mp h, List.mem_singleton]
        exact Ne.symm ha
      | cons first rest =>
        rw [hlines, consFirst, List.mem_cons] at h
        rcases h with rfl | h
        · rw [List.mem_cons, not_or]
          exact ⟨Ne.symm ha, ih (by rw [hlines]; exact List.mem_cons_self)⟩
        · exact ih (by rw [hlines]; exact List.mem_cons_of_mem _ h)

end Lines

/-! ### Fields -/

/-- The field that comes next and what is behind it; past the last field the field is empty. -/
def nextField (isSep : α → Bool) (text : List α) : List α × List α :=
  ((text.dropWhile isSep).takeWhile (!isSep ·), (text.dropWhile isSep).dropWhile (!isSep ·))

/-- A text that can stand as a field. -/
structure IsField (isSep : α → Bool) (field : List α) : Prop where
  ne_nil : field ≠ []
  no_sep : ∀ a ∈ field, isSep a = false

/-- The text is empty or begins with a separator. -/
def SepFirst (isSep : α → Bool) (text : List α) : Prop :=
  ∀ a ∈ text.head?, isSep a = true

variable {isSep : α → Bool}

theorem nextField_append {field text : List α} (hfield : IsField isSep field)
    (htext : SepFirst isSep text) : nextField isSep (field ++ text) = (field, text) := by
  obtain ⟨a, rest, rfl⟩ := List.exists_cons_of_ne_nil hfield.ne_nil
  have hskip : (a :: rest ++ text).dropWhile isSep = a :: rest ++ text :=
    List.dropWhile_cons_of_neg (by simp [hfield.no_sep a List.mem_cons_self])
  have htake : text.takeWhile (!isSep ·) = [] ∧ text.dropWhile (!isSep ·) = text := by
    cases text with
    | nil => exact ⟨rfl, rfl⟩
    | cons b text =>
      have hb : isSep b = true := htext b rfl
      simp [hb]
  have hnot : ∀ b ∈ a :: rest, (!isSep b) = true := by
    intro b hb
    rw [hfield.no_sep b hb]
    rfl
  rw [nextField, hskip, List.takeWhile_append_of_pos hnot, List.dropWhile_append_of_pos hnot,
    htake.1, htake.2, List.append_nil]

theorem nextField_cons {sep : α} (hsep : isSep sep = true) (text : List α) :
    nextField isSep (sep :: text) = nextField isSep text := by
  rw [nextField, List.dropWhile_cons_of_pos hsep]
  rfl

theorem nextField_no_sep (text : List α) : ∀ a ∈ (nextField isSep text).1, isSep a = false := by
  intro a ha
  simpa using List.mem_takeWhile_imp ha

theorem mem_of_mem_nextField {text : List α} {a : α} (h : a ∈ (nextField isSep text).1) :
    a ∈ text :=
  (List.dropWhile_suffix isSep).subset ((List.takeWhile_prefix _).subset h)

theorem nextField_sepFirst (text : List α) : SepFirst isSep (nextField isSep text).2 := by
  intro a ha
  have hhead := List.head?_dropWhile_not (!isSep ·) (text.dropWhile isSep)
  rw [nextField, Option.mem_def] at ha
  rw [ha] at hhead
  simpa using hhead

/-- A field is not empty if another one is behind it. -/
theorem nextField_ne_nil {text : List α} (h : (nextField isSep (nextField isSep text).2).1 ≠ []) :
    (nextField isSep text).1 ≠ [] := by
  intro hnil
  have hhead := List.head?_dropWhile_not isSep text
  rw [nextField] at hnil
  cases hrest : text.dropWhile isSep with
  | nil =>
    rw [nextField, nextField, hrest] at h
    exact h rfl
  | cons a rest =>
    rw [hrest] at hhead hnil
    rw [List.takeWhile_cons_of_pos (by simpa using hhead)] at hnil
    exact nomatch hnil

theorem nextField_length (text : List α) :
    (nextField isSep text).1.length + (nextField isSep text).2.length ≤ text.length := by
  rw [← List.length_append, nextField, List.takeWhile_append_dropWhile]
  exact (List.dropWhile_suffix isSep).length_le

/-- A field behind another one is behind a separator, too. -/
theorem nextField_length_lt {text : List α} (htext : SepFirst isSep text)
    (h : (nextField isSep text).1 ≠ []) :
    (nextField isSep text).1.length + (nextField isSep text).2.length < text.length := by
  cases text with
  | nil => exact absurd rfl h
  | cons sep text =>
    rw [nextField_cons (htext sep rfl)]
    exact Nat.lt_succ_of_le (nextField_length text)

end LibSshpp
