import Mathlib.Algebra.Group.Int.Defs
import Mathlib.Algebra.Group.Nat.Defs
import Mathlib.Data.List.Infix
import Mathlib.Data.List.TakeWhile

/-!
Byte strings. Everything the library exchanges with libssh, the kernel or a
remote shell is a sequence of octets; a `char*` argument is the sequence up to
its first NUL.
-/

set_option autoImplicit false
set_option relaxedAutoImplicit false

namespace LibSshpp

abbrev Bytes := List UInt8

/-- The bytes of an ASCII text. -/
def ascii (text : String) : Bytes :=
  text.toList.map fun c ↦ c.toNat.toUInt8

/-- The decimal digits of a number. -/
def decimal (n : ℕ) : Bytes :=
  (Nat.toDigits 10 n).map fun c ↦ c.toNat.toUInt8

/-- What a callee sees of a buffer passed as a NUL-terminated string. -/
def cString (buffer : Bytes) : Bytes :=
  buffer.takeWhile (· ≠ 0)

theorem cString_eq_self {buffer : Bytes} (h : 0 ∉ buffer) : cString buffer = buffer := by
  rw [cString, List.takeWhile_eq_self_iff]
  intro byte hbyte
  simpa using ne_of_mem_of_not_mem hbyte h

theorem cString_ne_self {buffer : Bytes} (h : 0 ∈ buffer) : cString buffer ≠ buffer := by
  intro heq
  have hkept := List.takeWhile_eq_self_iff.mp heq 0 h
  simp at hkept

/-! ### Reading on from an offset -/

theorem append_isPrefix_drop {content first second : Bytes} {offset : ℕ}
    (hfirst : first <+: content.drop offset)
    (hsecond : second <+: content.drop (offset + first.length)) :
    first ++ second <+: content.drop offset := by
  obtain ⟨rest, hrest⟩ := hfirst
  rw [← List.drop_drop, ← hrest, List.drop_left] at hsecond
  rw [← hrest]
  exact (List.prefix_append_right_inj first).mpr hsecond

/-- A prefix of what is left that leaves nothing is all that was left. -/
theorem eq_of_isPrefix_drop {content data : Bytes} {offset : ℕ}
    (hinitial : data <+: content.drop offset) (hend : content.drop (offset + data.length) = []) :
    data = content.drop offset := by
  obtain ⟨rest, hrest⟩ := hinitial
  rw [← List.drop_drop, ← hrest, List.drop_left] at hend
  rw [← hrest, hend, List.append_nil]

end LibSshpp
