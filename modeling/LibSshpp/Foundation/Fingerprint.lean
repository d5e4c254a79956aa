import LibSshpp.Foundation.Bytes

/-!
Fingerprints of keys, and the comparison of secrets that looks at every byte: the differences are
gathered over both buffers, and the buffers are the same when nothing was gathered.
-/

set_option autoImplicit false
set_option relaxedAutoImplicit false

namespace LibSshpp

inductive HashType
  | md5 | sha1 | sha256
  deriving DecidableEq, Repr

@[ext] structure Fingerprint where
  type : HashType := .sha256
  bytes : Bytes := []
  deriving DecidableEq, Repr

/-- The bits in which the buffers differ somewhere, as far as both reach. -/
def gatheredDiff (a b : Bytes) : UInt8 :=
  (List.zipWith (fun x y ↦ x ^^^ y) a b).foldl (fun diff x ↦ diff ||| x) 0

theorem foldl_or_eq_zero_iff (bytes : Bytes) (diff : UInt8) :
    bytes.foldl (fun diff x ↦ diff ||| x) diff = 0 ↔ diff = 0 ∧ ∀ x ∈ bytes, x = 0 := by
  induction bytes generalizing diff with
  | nil => simp
  | cons byte bytes ih => rw [List.foldl_cons, ih, UInt8.or_eq_zero_iff, List.forall_mem_cons,
      and_assoc]

theorem gatheredDiff_eq_zero_iff {a b : Bytes} (hlength : a.length = b.length) :
    gatheredDiff a b = 0 ↔ a = b := by
  rw [gatheredDiff, foldl_or_eq_zero_iff]
  induction a generalizing b with
  | nil => simpa using (List.length_eq_zero_iff.mp hlength.symm).symm
  | cons x a ih =>
    cases b with
    | nil => exact nomatch hlength
    | cons y b =>
      have hrest := ih (Nat.succ.inj hlength)
      rw [List.zipWith_cons_cons, List.forall_mem_cons, List.cons.injEq, UInt8.xor_eq_zero_iff,
        ← hrest]
      exact ⟨fun h ↦ ⟨h.2.1, rfl, h.2.2⟩, fun h ↦ ⟨rfl, h.1, h.2.2⟩⟩

/-- `Fingerprint::operator==`. -/
def Fingerprint.equal (fingerprint other : Fingerprint) : Bool :=
  if fingerprint.type ≠ other.type ∨ fingerprint.bytes.length ≠ other.bytes.length then false
  else gatheredDiff fingerprint.bytes other.bytes == 0

theorem Fingerprint.equal_iff (fingerprint other : Fingerprint) :
    fingerprint.equal other = true ↔ fingerprint = other := by
  rw [Fingerprint.equal]
  split_ifs with hdiffer
  · refine iff_of_false id fun heq ↦ ?_
    subst heq
    simp at hdiffer
  · simp only [not_or, not_not] at hdiffer
    rw [beq_iff_eq, gatheredDiff_eq_zero_iff hdiffer.2, Fingerprint.ext_iff]
    exact (and_iff_right hdiffer.1).symm

end LibSshpp
