import Mathlib.Data.List.Infix

/-!
Reading a list in batches. A batch has room for a number of items; entries are read one
after another and looked up, and those that are not found are left out. Reading an entry
can fail as well, which ends the batch with the entry still to be read.
-/

set_option autoImplicit false
set_option relaxedAutoImplicit false

namespace LibSshpp.Program

variable {α β : Type}

/-- The items of a batch and the entries that are left. Entries are counted from `place` on;
`stops` says at which of them reading fails. -/
def batch (look : ℕ → α → Option β) (stops : ℕ → Bool) : ℕ → ℕ → List α → List β × List α
  | _, _, [] => ([], [])
  | room, place, entry :: rest =>
    if room = 0 ∨ stops place then ([], entry :: rest)
    else
      match look place entry with
      | none => batch look stops room (place + 1) rest
      | some item =>
        let later := batch look stops (room - 1) (place + 1) rest
        (item :: later.1, later.2)

variable {look : ℕ → α → Option β} {stops : ℕ → Bool}

@[simp] theorem batch_nil (room place : ℕ) : batch look stops room place [] = ([], []) := rfl

theorem batch_of_stops {room place : ℕ} (h : stops place = true) (entries : List α) :
    batch look stops room place entries = ([], entries) := by
  cases entries with
  | nil => rfl
  | cons entry rest => rw [batch, if_pos (Or.inr h)]

theorem batch_of_full (place : ℕ) (entries : List α) :
    batch look stops 0 place entries = ([], entries) := by
  cases entries with
  | nil => rfl
  | cons entry rest => rw [batch, if_pos (Or.inl rfl)]

theorem batch_of_skip {room place : ℕ} (hroom : room ≠ 0) (hstops : stops place = false)
    {entry : α} (hlook : look place entry = none) (rest : List α) :
    batch look stops room place (entry :: rest) = batch look stops room (place + 1) rest := by
  rw [batch, if_neg (by simp [hroom, hstops]), hlook]

theorem batch_of_found {room place : ℕ} (hroom : room ≠ 0) (hstops : stops place = false)
    {entry : α} {item : β} (hlook : look place entry = some item) (rest : List α) :
    batch look stops room place (entry :: rest) =
      (item :: (batch look stops (room - 1) (place + 1) rest).1,
        (batch look stops (room - 1) (place + 1) rest).2) := by
  rw [batch, if_neg (by simp [hroom, hstops]), hlook]

theorem batch_length (room place : ℕ) (entries : List α) :
    (batch look stops room place entries).1.length ≤ room := by
  induction entries generalizing room place with
  | nil => exact Nat.zero_le _
  | cons entry rest ih =>
    rw [batch]
    split_ifs with hstop
    · exact Nat.zero_le _
    · have hroom : room ≠ 0 := fun hfull ↦ hstop (Or.inl hfull)
      split
      · exact ih room (place + 1)
      · have hlater := ih (room - 1) (place + 1)
        rw [List.length_cons]
        omega

/-- What a batch reports was found. -/
theorem batch_found {room place : ℕ} {entries : List α} {item : β}
    (h : item ∈ (batch look stops room place entries).1) :
    ∃ place entry, look place entry = some item := by
  induction entries generalizing room place with
  | nil => exact absurd h List.not_mem_nil
  | cons entry rest ih =>
    rw [batch] at h
    split_ifs at h with hstop
    · exact absurd h List.not_mem_nil
    · cases hlook : look place entry with
      | none =>
        rw [hlook] at h
        exact ih h
      | some other =>
        rw [hlook] at h
        rcases List.mem_cons.mp h with rfl | hlater
        · exact ⟨place, entry, hlook⟩
        · exact ih hlater

/-- What a batch reports and what it leaves are in order, and nothing comes twice. -/
theorem batch_sublist {key : β → α}
    (hkey : ∀ place entry item, look place entry = some item → key item = entry)
    (room place : ℕ) (entries : List α) :
    ((batch look stops room place entries).1.map key ++
      (batch look stops room place entries).2).Sublist entries := by
  induction entries generalizing room place with
  | nil => exact List.Sublist.refl _
  | cons entry rest ih =>
    rw [batch]
    split_ifs with hstop
    · exact List.Sublist.refl _
    · cases hlook : look place entry with
      | none => exact (ih room (place + 1)).cons entry
      | some item =>
        have hitem := hkey place entry item hlook
        rw [← hitem]
        exact (ih (room - 1) (place + 1)).cons_cons (key item)

/-- The entry at a distance from `place` is reached without failure, and found. -/
def Reaches (look : ℕ → α → Option β) (stops : ℕ → Bool) (place : ℕ) (entries : List α) : Prop :=
  ∃ distance entry, entries[distance]? = some entry ∧
    (∀ earlier ≤ distance, stops (place + earlier) = false) ∧
      look (place + distance) entry ≠ none

theorem reaches_cons {place : ℕ} {entry : α} {rest : List α} :
    Reaches look stops place (entry :: rest) ↔
      stops place = false ∧ (look place entry ≠ none ∨ Reaches look stops (place + 1) rest) := by
  constructor
  · rintro ⟨distance, other, hother, hstops, hlook⟩
    refine ⟨hstops 0 (Nat.zero_le _), ?_⟩
    cases distance with
    | zero =>
      obtain rfl : entry = other := by simpa using hother
      exact Or.inl hlook
    | succ distance =>
      refine Or.inr ⟨distance, other, by simpa using hother, fun earlier hle ↦ ?_, ?_⟩
      · rw [Nat.add_assoc, Nat.add_comm 1]
        exact hstops (earlier + 1) (Nat.succ_le_succ hle)
      · rwa [Nat.add_assoc, Nat.add_comm 1]
  · rintro ⟨hfirst, hlook | ⟨distance, other, hother, hstops, hlook⟩⟩
    · refine ⟨0, entry, rfl, fun earlier hle ↦ ?_, hlook⟩
      rwa [Nat.le_zero.mp hle]
    · rw [Nat.add_assoc, Nat.add_comm 1] at hlook
      refine ⟨distance + 1, other, by simpa using hother, fun earlier hle ↦ ?_, hlook⟩
      cases earlier with
      | zero => exact hfirst
      | succ earlier =>
        rw [Nat.add_comm earlier, ← Nat.add_assoc]
        exact hstops earlier (Nat.le_of_succ_le_succ hle)

/-- A batch with room is empty exactly if no entry can be reached and found. -/
theorem batch_eq_nil_iff {room place : ℕ} (hroom : room ≠ 0) (entries : List α) :
    (batch look stops room place entries).1 = [] ↔ ¬ Reaches look stops place entries := by
  induction entries generalizing place with
  | nil =>
    refine ⟨fun _ h ↦ ?_, fun _ ↦ rfl⟩
    obtain ⟨_, _, hentry, -⟩ := h
    exact nomatch hentry
  | cons entry rest ih =>
    rw [reaches_cons]
    cases hstops : stops place with
    | true => simp [batch_of_stops hstops]
    | false =>
      cases hlook : look place entry with
      | none => simp [batch_of_skip hroom hstops hlook, ih]
      | some item => simp [batch_of_found hroom hstops hlook]

/-! ### Reading on with the same outcome -/

/-- Every entry that the batch comes to is read, and looking it up finds it if `reports` says
so. -/
def Steady (look : ℕ → α → Option β) (stops : ℕ → Bool) (reports : α → Bool) (room place : ℕ)
    (entries : List α) : Prop :=
  ∀ distance entry, entries[distance]? = some entry →
    ((entries.take distance).filter reports).length < room →
      stops (place + distance) = false ∧ (look (place + distance) entry).isSome = reports entry

variable {reports : α → Bool}

/-- Only the entries of the list need checking. -/
theorem steady_iff {room place : ℕ} {entries : List α} :
    Steady look stops reports room place entries ↔
      ∀ distance : Fin entries.length, ((entries.take distance).filter reports).length < room →
        stops (place + distance) = false ∧
          (look (place + distance) entries[distance]).isSome = reports entries[distance] := by
  constructor
  · intro h distance hlength
    exact h distance _ (List.getElem?_eq_getElem distance.isLt) hlength
  · intro h distance entry hentry hlength
    obtain ⟨hlt, rfl⟩ := List.getElem?_eq_some_iff.mp hentry
    exact h ⟨distance, hlt⟩ hlength

instance (room place : ℕ) (entries : List α) :
    Decidable (Steady look stops reports room place entries) :=
  decidable_of_iff _ steady_iff.symm

theorem Steady.head {room place : ℕ} (hroom : room ≠ 0) {entry : α} {rest : List α}
    (h : Steady look stops reports room place (entry :: rest)) :
    stops place = false ∧ (look place entry).isSome = reports entry :=
  h 0 entry rfl (Nat.pos_of_ne_zero hroom)

theorem Steady.tail {room place : ℕ} {entry : α} {rest : List α}
    (h : Steady look stops reports room place (entry :: rest)) :
    Steady look stops reports (room - ([entry].filter reports).length) (place + 1) rest := by
  intro distance other hother hlength
  have hsplit : (((entry :: rest).take (distance + 1)).filter reports).length =
      ([entry].filter reports).length + ((rest.take distance).filter reports).length := by
    rw [List.take_succ_cons, ← List.singleton_append, List.filter_append, List.length_append]
  have hnext := h (distance + 1) other (by simpa using hother) (by omega)
  rwa [Nat.add_comm distance, ← Nat.add_assoc] at hnext

/-- Nothing is lost and nothing comes twice: what a batch reports and what is to be reported
of the entries that are left make up the whole. Entries are left only when the batch is full. -/
theorem batch_append {key : β → α}
    (hkey : ∀ place entry item, look place entry = some item → key item = entry)
    {room place : ℕ} {entries : List α} (h : Steady look stops reports room place entries) :
    (batch look stops room place entries).1.map key ++
        (batch look stops room place entries).2.filter reports = entries.filter reports ∧
      ((batch look stops room place entries).1.length = room ∨
        (batch look stops room place entries).2 = []) := by
  induction entries generalizing room place with
  | nil => exact ⟨rfl, Or.inr rfl⟩
  | cons entry rest ih =>
    by_cases hroom : room = 0
    · rw [hroom, batch_of_full]
      exact ⟨rfl, Or.inl rfl⟩
    · obtain ⟨hstops, hreports⟩ := h.head hroom
      have htail := h.tail
      cases hlook : look place entry with
      | none =>
        rw [hlook] at hreports
        have hskip : ¬ reports entry = true := by simp [← hreports]
        rw [List.filter_cons_of_neg hskip] at htail ⊢
        rw [batch_of_skip hroom hstops hlook]
        exact ih htail
      | some item =>
        rw [hlook] at hreports
        rw [List.filter_cons_of_pos hreports.symm, List.filter_nil, List.length_singleton] at htail
        obtain ⟨hitems, hend⟩ := ih htail
        rw [batch_of_found hroom hstops hlook, List.filter_cons_of_pos hreports.symm,
          List.map_cons, hkey place entry item hlook]
        refine ⟨congrArg (entry :: ·) hitems, hend.imp (fun hlength ↦ ?_) id⟩
        rw [List.length_cons, hlength]
        exact Nat.sub_add_cancel (Nat.pos_of_ne_zero hroom)

/-- A batch with room reads on. -/
theorem batch_left_length {room place : ℕ} (hroom : room ≠ 0) {entries : List α}
    (hne : entries ≠ []) (hstops : stops place = false) :
    (batch look stops room place entries).2.length < entries.length := by
  have hle : ∀ (rest : List α) (room place : ℕ),
      (batch look stops room place rest).2.length ≤ rest.length := by
    intro rest
    induction rest with
    | nil => exact fun _ _ ↦ Nat.le_refl _
    | cons entry rest ih =>
      intro room place
      rw [batch]
      split_ifs with hstop
      · exact Nat.le_refl _
      · split
        · exact Nat.le_succ_of_le (ih room (place + 1))
        · exact Nat.le_succ_of_le (ih (room - 1) (place + 1))
  cases entries with
  | nil => exact absurd rfl hne
  | cons entry rest =>
    cases hlook : look place entry with
    | none =>
      rw [batch_of_skip hroom hstops hlook]
      exact Nat.lt_succ_of_le (hle rest room (place + 1))
    | some item =>
      rw [batch_of_found hroom hstops hlook]
      exact Nat.lt_succ_of_le (hle rest (room - 1) (place + 1))

end LibSshpp.Program
