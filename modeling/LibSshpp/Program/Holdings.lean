import LibSshpp.Program.StateTriple

/-!
What a program has been given by the system and must give back: descriptors, native objects,
lists that a call allocated. Everything given out has a number of its own, so a thing that was
given back is never held again. A call with a thing that is not held is a stray one.
-/

set_option autoImplicit false
set_option relaxedAutoImplicit false

namespace LibSshpp.Program

/-- The things held, the number of the next one and the stray calls so far. -/
structure Holdings (κ : Type) where
  held : List (κ × ℕ) := []
  next : ℕ := 0
  strays : List (κ × ℕ) := []
  deriving DecidableEq, Repr

namespace Holdings

variable {κ : Type} [DecidableEq κ]

def acquire (kind : κ) : StateM (Holdings κ) ℕ := fun holdings ↦
  (holdings.next, { holdings with
    held := (kind, holdings.next) :: holdings.held, next := holdings.next + 1 })

/-- A call with a thing. -/
def use (item : κ × ℕ) : StateM (Holdings κ) Unit := fun holdings ↦
  ((), if item ∈ holdings.held then holdings
    else { holdings with strays := item :: holdings.strays })

def release (item : κ × ℕ) : StateM (Holdings κ) Unit := fun holdings ↦
  ((), if item ∈ holdings.held then { holdings with held := holdings.held.erase item }
    else { holdings with strays := item :: holdings.strays })

/-- Exactly these things are held, and there was no stray call. -/
structure Are (items : List (κ × ℕ)) (holdings : Holdings κ) : Prop where
  held : holdings.held = items
  strays : holdings.strays = []

variable {items : List (κ × ℕ)} {item : κ × ℕ}

omit [DecidableEq κ] in
theorem are_acquire (kind : κ) (items : List (κ × ℕ)) :
    Triple (Are items) (acquire kind) fun number ↦ Are ((kind, number) :: items) :=
  fun _ h ↦ ⟨congrArg _ h.held, h.strays⟩

theorem are_use (hitem : item ∈ items) : Triple (Are items) (use item) fun _ ↦ Are items := by
  intro holdings h
  have huse : (use item holdings).2 = holdings := if_pos (h.held ▸ hitem)
  rw [huse]
  exact h

theorem are_release (hitem : item ∈ items) :
    Triple (Are items) (release item) fun _ ↦ Are (items.erase item) := by
  intro holdings h
  have hrelease : (release item holdings).2 =
      { holdings with held := holdings.held.erase item } := if_pos (h.held ▸ hitem)
  rw [hrelease]
  exact ⟨congrArg (List.erase · item) h.held, h.strays⟩

/-- The thing that came last goes first. -/
theorem are_releaseLast (item : κ × ℕ) (items : List (κ × ℕ)) :
    Triple (Are (item :: items)) (release item) fun _ ↦ Are items := by
  have h : Triple (Are (item :: items)) (release item) fun _ ↦ Are ((item :: items).erase item) :=
    are_release List.mem_cons_self
  rw [List.erase_cons_head] at h
  exact h

theorem erase_below {kind other : κ} (hkind : kind ≠ other) (number below : ℕ)
    (items : List (κ × ℕ)) :
    ((kind, number) :: (other, below) :: items).erase (other, below) = (kind, number) :: items := by
  have hother : ¬ ((kind, number) == (other, below)) = true := fun h ↦
    hkind (congrArg Prod.fst (eq_of_beq h))
  rw [List.erase_cons_tail hother, List.erase_cons_head]

/-- The thing below one of another kind goes. -/
theorem are_releaseBelow {kind other : κ} (hkind : kind ≠ other) (number below : ℕ)
    (items : List (κ × ℕ)) :
    Triple (Are ((kind, number) :: (other, below) :: items)) (release (other, below))
      fun _ ↦ Are ((kind, number) :: items) := by
  have h : Triple (Are ((kind, number) :: (other, below) :: items)) (release (other, below))
      fun _ ↦ Are (((kind, number) :: (other, below) :: items).erase (other, below)) :=
    are_release (List.mem_cons_of_mem _ List.mem_cons_self)
  rw [erase_below hkind] at h
  exact h

end Holdings

end LibSshpp.Program
