import LibSshpp.Program.StateTriple
import Mathlib.Data.Nat.Notation

/-!
Copying from one place to another piece by piece. The loop asks how much to read,
stops when it is told to or when there was nothing to read, gives what it read to
the other side and counts it. Both sides are part of one state, and what the loop
has done is described by a relation that says which data takes one state to
another.
-/

set_option autoImplicit false
set_option relaxedAutoImplicit false

namespace LibSshpp.Program

variable {σ α ε : Type}

/-- The loop with the rounds it has left and the number of elements copied so far.
`want` is how much the next round is to read, if there is to be one; `check` is
asked after each round whether to give up. -/
def copyLoop (want : σ → ℕ → Option ℕ) (read : ℕ → StateM σ (Except ε (List α)))
    (write : List α → StateM σ (Except ε Unit)) (check : ℕ → Option ε) :
    ℕ → ℕ → StateM σ (Except ε ℕ)
  | 0, total => pure (.ok total)
  | rounds + 1, total => fun state ↦
    match want state total with
    | none => (.ok total, state)
    | some len =>
      match read len state with
      | (.error error, state) => (.error error, state)
      | (.ok [], state) => (.ok total, state)
      | (.ok (first :: rest), state) =>
        match write (first :: rest) state with
        | (.error error, state) => (.error error, state)
        | (.ok (), state) =>
          match check (total + (first :: rest).length) with
          | some error => (.error error, state)
          | none => copyLoop want read write check rounds (total + (first :: rest).length) state

/-- Each round of the loop moves what it reads. -/
structure Copies (want : σ → ℕ → Option ℕ) (read : ℕ → StateM σ (Except ε (List α)))
    (write : List α → StateM σ (Except ε Unit)) (moved : σ → List α → σ → Prop) : Prop where
  refl : ∀ state, moved state [] state
  trans : ∀ {before middle after first second}, moved before first middle →
    moved middle second after → moved before (first ++ second) after
  step : ∀ {state middle after total len data}, want state total = some len →
    read len state = (.ok data, middle) → data ≠ [] → write data middle = (.ok (), after) →
      moved state data after

/-- Why the loop stopped after `data`: there was to be no further round, there was
nothing to read, or it had no rounds left, each of which copies something. -/
def Stopped (want : σ → ℕ → Option ℕ) (read : ℕ → StateM σ (Except ε (List α))) (rounds : ℕ)
    (data : List α) (total : ℕ) (last after : σ) : Prop :=
  (want last total = none ∧ after = last) ∨
    (∃ len, want last total = some len ∧ read len last = (.ok [], after)) ∨
    (rounds ≤ data.length ∧ after = last)

variable {want : σ → ℕ → Option ℕ} {read : ℕ → StateM σ (Except ε (List α))}
  {write : List α → StateM σ (Except ε Unit)} {check : ℕ → Option ε}
  {moved : σ → List α → σ → Prop}

/-- What one round of the loop comes to: the loop ends there, or it has copied
something and the other rounds follow. -/
inductive Round (want : σ → ℕ → Option ℕ) (read : ℕ → StateM σ (Except ε (List α)))
    (write : List α → StateM σ (Except ε Unit)) (check : ℕ → Option ε) (rounds total : ℕ)
    (state : σ) : Except ε ℕ × σ → Prop
  | unwanted (hwant : want state total = none) :
    Round want read write check rounds total state (.ok total, state)
  | readFailed {len : ℕ} {error : ε} {after : σ} (hwant : want state total = some len)
    (hread : read len state = (.error error, after)) :
    Round want read write check rounds total state (.error error, after)
  | nothing {len : ℕ} {after : σ} (hwant : want state total = some len)
    (hread : read len state = (.ok [], after)) :
    Round want read write check rounds total state (.ok total, after)
  | writeFailed {len : ℕ} {data : List α} {middle after : σ} {error : ε}
    (hwant : want state total = some len) (hread : read len state = (.ok data, middle))
    (hne : data ≠ []) (hwrite : write data middle = (.error error, after)) :
    Round want read write check rounds total state (.error error, after)
  | refused {len : ℕ} {data : List α} {middle after : σ} {error : ε}
    (hwant : want state total = some len) (hread : read len state = (.ok data, middle))
    (hne : data ≠ []) (hwrite : write data middle = (.ok (), after))
    (hcheck : check (total + data.length) = some error) :
    Round want read write check rounds total state (.error error, after)
  | copied {len : ℕ} {data : List α} {middle written : σ} {outcome : Except ε ℕ × σ}
    (hwant : want state total = some len) (hread : read len state = (.ok data, middle))
    (hne : data ≠ []) (hwrite : write data middle = (.ok (), written))
    (hcheck : check (total + data.length) = none)
    (hlater : copyLoop want read write check rounds (total + data.length) written = outcome) :
    Round want read write check rounds total state outcome

theorem copyLoop_round {rounds total : ℕ} {state : σ} {outcome : Except ε ℕ × σ}
    (hrun : copyLoop want read write check (rounds + 1) total state = outcome) :
    Round want read write check rounds total state outcome := by
  subst hrun
  rw [copyLoop]
  cases hwant : want state total with
  | none =>
    simp only [hwant]
    exact .unwanted hwant
  | some len =>
    simp only [hwant]
    rcases hread : read len state with ⟨error | _ | ⟨first, rest⟩, middle⟩
    · exact .readFailed hwant hread
    · exact .nothing hwant hread
    · have hne : first :: rest ≠ [] := List.cons_ne_nil first rest
      rcases hwrite : write (first :: rest) middle with ⟨error | _, written⟩ <;>
        simp only [hwrite]
      · exact .writeFailed hwant hread hne hwrite
      · cases hcheck : check (total + (first :: rest).length) with
        | some error => exact .refused hwant hread hne hwrite hcheck
        | none => exact .copied hwant hread hne hwrite hcheck rfl

/-- One round either ends the loop or moves something and goes on. -/
theorem copyLoop_succ_ok {rounds total count : ℕ} {state after : σ}
    (hrun : copyLoop want read write check (rounds + 1) total state = (.ok count, after)) :
    (count = total ∧ Stopped want read (rounds + 1) [] total state after) ∨
      ∃ len data middle written, want state total = some len ∧
        read len state = (.ok data, middle) ∧ data ≠ [] ∧ write data middle = (.ok (), written) ∧
        copyLoop want read write check rounds (total + data.length) written =
          (.ok count, after) := by
  cases copyLoop_round hrun with
  | unwanted hwant => exact .inl ⟨rfl, .inl ⟨hwant, rfl⟩⟩
  | nothing hwant hread => exact .inl ⟨rfl, .inr (.inl ⟨_, hwant, hread⟩)⟩
  | copied hwant hread hne hwrite _ hlater =>
    exact .inr ⟨_, _, _, _, hwant, hread, hne, hwrite, hlater⟩

/-- A loop that succeeds has moved some data, counted it, and stopped for one of
its reasons. -/
theorem Copies.copyLoop_ok (hcopies : Copies want read write moved) (rounds : ℕ) :
    ∀ {total count : ℕ} {state after : σ},
      copyLoop want read write check rounds total state = (.ok count, after) →
        ∃ data last, moved state data last ∧ count = total + data.length ∧
          Stopped want read rounds data count last after := by
  induction rounds with
  | zero =>
    intro total count state after hrun
    obtain ⟨hcount, rfl⟩ := Prod.mk.inj hrun
    obtain rfl := Except.ok.inj hcount
    exact ⟨[], state, hcopies.refl state, rfl, .inr (.inr ⟨le_rfl, rfl⟩)⟩
  | succ rounds ih =>
    intro total count state after hrun
    rcases copyLoop_succ_ok hrun with ⟨rfl, hstopped⟩ |
      ⟨len, first, middle, written, hwant, hread, hne, hwrite, hlater⟩
    · exact ⟨[], state, hcopies.refl state, rfl, hstopped⟩
    · obtain ⟨rest, last, hmoved, hcount, hstopped⟩ := ih hlater
      have hpos := List.length_pos_iff.mpr hne
      have hfirst := hcopies.step hwant hread hne hwrite
      refine ⟨first ++ rest, last, hcopies.trans hfirst hmoved, ?_, ?_⟩
      · rw [hcount, List.length_append, Nat.add_assoc]
      · rcases hstopped with hnone | hnothing | ⟨hrounds, hafter⟩
        · exact .inl hnone
        · exact .inr (.inl hnothing)
        · refine .inr (.inr ⟨?_, hafter⟩)
          rw [List.length_append]
          omega

/-- A loop that never wants more than is left up to a bound copies no more. -/
theorem copyLoop_le {bound : ℕ}
    (hwant : ∀ {state total len}, want state total = some len → total + len ≤ bound)
    (hread : ∀ {len state data after}, read len state = (.ok data, after) → data.length ≤ len)
    (rounds : ℕ) : ∀ {total count : ℕ} {state after : σ}, total ≤ bound →
      copyLoop want read write check rounds total state = (.ok count, after) → count ≤ bound := by
  induction rounds with
  | zero =>
    intro total count state after htotal hrun
    obtain ⟨hcount, -⟩ := Prod.mk.inj hrun
    exact Except.ok.inj hcount ▸ htotal
  | succ rounds ih =>
    intro total count state after htotal hrun
    rcases copyLoop_succ_ok hrun with ⟨rfl, -⟩ |
      ⟨len, data, middle, written, hlen, hdata, -, -, hlater⟩
    · exact htotal
    · have hasked := hwant hlen
      have hgot := hread hdata
      exact ih (by omega) hlater

/-- A loop succeeds if neither side ever fails and nobody gives up. -/
theorem copyLoop_succeeds {inv : σ → Prop}
    (hread : ∀ len state, inv state → ∃ data after, read len state = (.ok data, after) ∧ inv after)
    (hwrite : ∀ data state, inv state → ∃ after, write data state = (.ok (), after) ∧ inv after)
    (hcheck : ∀ total, check total = none) (rounds : ℕ) :
    ∀ {total : ℕ} {state : σ}, inv state →
      ∃ count after, copyLoop want read write check rounds total state = (.ok count, after) := by
  induction rounds with
  | zero => exact fun {total state} _ ↦ ⟨total, state, rfl⟩
  | succ rounds ih =>
    intro total state hinv
    rw [copyLoop]
    cases hwant : want state total with
    | none => exact ⟨total, state, by simp only [hwant]⟩
    | some len =>
      obtain ⟨data, middle, hdata, hmiddle⟩ := hread len state hinv
      cases data with
      | nil => exact ⟨total, middle, by simp only [hwant, hdata]⟩
      | cons first rest =>
        obtain ⟨written, hwritten, hafter⟩ := hwrite (first :: rest) middle hmiddle
        simp only [hwant, hdata, hwritten, hcheck]
        exact ih hafter

/-- A loop succeeds if every read does, and every write of what was just read. -/
theorem copyLoop_carries {inv : σ → Prop} {held : List α → σ → Prop}
    (hread : ∀ len state total, inv state → want state total = some len →
      ∃ data after, read len state = (.ok data, after) ∧ held data after)
    (hwrite : ∀ data state, held data state →
      ∃ after, write data state = (.ok (), after) ∧ inv after)
    (hcheck : ∀ total, check total = none) (rounds : ℕ) :
    ∀ {total : ℕ} {state : σ}, inv state →
      ∃ count after, copyLoop want read write check rounds total state = (.ok count, after) := by
  induction rounds with
  | zero => exact fun {total state} _ ↦ ⟨total, state, rfl⟩
  | succ rounds ih =>
    intro total state hinv
    rw [copyLoop]
    cases hwant : want state total with
    | none => exact ⟨total, state, by simp only [hwant]⟩
    | some len =>
      obtain ⟨data, middle, hdata, hmiddle⟩ := hread len state total hinv hwant
      cases data with
      | nil => exact ⟨total, middle, by simp only [hwant, hdata]⟩
      | cons first rest =>
        obtain ⟨written, hwritten, hafter⟩ := hwrite (first :: rest) middle hmiddle
        simp only [hwant, hdata, hwritten, hcheck]
        exact ih hafter

end LibSshpp.Program
