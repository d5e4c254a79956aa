import LibSshpp.Foundation.Bytes
import Mathlib.Data.Int.Notation
import Mathlib.Tactic.SplitIfs

/-!
`std::stoi` in base ten and the "C" locale: blanks and a sign before the digits are taken,
whatever is behind them is ignored, and what is left has to fit an `int`. A decimal numeral
is far less than what it accepts.
-/

set_option autoImplicit false
set_option relaxedAutoImplicit false

namespace LibSshpp

/-- `isspace`. -/
def isSpace (byte : UInt8) : Bool := byte == 0x20 || (0x09 ≤ byte && byte ≤ 0x0d)

def isDecimalDigit (byte : UInt8) : Bool := 0x30 ≤ byte && byte ≤ 0x39

/-- The number that decimal digits stand for. -/
def digitsValue (digits : Bytes) : ℕ :=
  digits.foldl (fun value digit ↦ 10 * value + (digit.toNat - 0x30)) 0

/-- The exceptions of `std::stoi`. -/
inductive StoiError
  | invalidArgument
  | outOfRange
  deriving DecidableEq, Repr

/-- The sign, if there is one: whether it is a minus, and the text behind it. -/
def cutSign : Bytes → Bool × Bytes
  | 0x2d :: text => (true, text)
  | 0x2b :: text => (false, text)
  | text => (false, text)

def stoi (text : Bytes) : Except StoiError ℤ :=
  let signed := cutSign (text.dropWhile isSpace)
  let digits := signed.2.takeWhile isDecimalDigit
  let value : ℤ := if signed.1 then -(digitsValue digits : ℤ) else digitsValue digits
  if digits = [] then .error .invalidArgument
  else if -2 ^ 31 ≤ value ∧ value < 2 ^ 31 then .ok value
  else .error .outOfRange

/-! ### Numerals -/

/-- The text is a decimal numeral of the number. -/
structure Numeral (text : Bytes) (n : ℕ) : Prop where
  ne_nil : text ≠ []
  digits : ∀ byte ∈ text, isDecimalDigit byte = true
  value : digitsValue text = n

theorem isDecimalDigit_iff {byte : UInt8} :
    isDecimalDigit byte = true ↔ 0x30 ≤ byte.toNat ∧ byte.toNat ≤ 0x39 := by
  rw [isDecimalDigit, Bool.and_eq_true, decide_eq_true_iff, decide_eq_true_iff]
  exact Iff.rfl

/-- A digit is no blank and no sign. -/
theorem isDecimalDigit_ne {byte : UInt8} (h : isDecimalDigit byte = true) :
    isSpace byte = false ∧ byte ≠ 0x2d ∧ byte ≠ 0x2b := by
  refine ⟨?_, ?_, ?_⟩
  · rw [isDecimalDigit_iff] at h
    have hspace : byte ≠ 0x20 := by
      rintro rfl
      exact absurd h.1 (by decide)
    have hcontrol : ¬ byte ≤ 0x0d := fun hle ↦ absurd (UInt8.le_iff_toNat_le.mp hle) (by
      show ¬ byte.toNat ≤ 13
      omega)
    simp [isSpace, hspace, hcontrol]
  · rintro rfl
    exact absurd h (by decide)
  · rintro rfl
    exact absurd h (by decide)

theorem stoi_numeral {text : Bytes} {n : ℕ} (h : Numeral text n) :
    stoi text = if n < 2 ^ 31 then .ok n else .error .outOfRange := by
  obtain ⟨byte, rest, rfl⟩ := List.exists_cons_of_ne_nil h.ne_nil
  obtain ⟨hblank, hminus, hplus⟩ := isDecimalDigit_ne (h.digits byte List.mem_cons_self)
  have hskip : (byte :: rest).dropWhile isSpace = byte :: rest :=
    List.dropWhile_cons_of_neg (by rw [hblank]; exact Bool.false_ne_true)
  have hsign : cutSign (byte :: rest) = (false, byte :: rest) := by
    unfold cutSign
    split
    · exact absurd (List.cons.inj ‹_›).1 hminus
    · exact absurd (List.cons.inj ‹_›).1 hplus
    · rfl
  have hdigits : (byte :: rest).takeWhile isDecimalDigit = byte :: rest :=
    List.takeWhile_eq_self_iff.mpr h.digits
  unfold stoi
  rw [hskip, hsign]
  dsimp only
  rw [hdigits, if_neg (List.cons_ne_nil _ _), h.value, if_neg Bool.false_ne_true]
  refine if_congr ?_ rfl rfl
  omega

/-- The digit of a number below ten. -/
def digitByte (d : ℕ) : UInt8 := (Nat.digitChar d).toNat.toUInt8

theorem toNat_digitByte {d : ℕ} (h : d < 10) : (digitByte d).toNat = 0x30 + d := by
  rw [digitByte, Nat.toNat_digitChar_of_lt_ten h, UInt8.toNat_ofNat']
  omega

theorem numeral_digitByte {d : ℕ} (h : d < 10) : Numeral [digitByte d] d where
  ne_nil := List.cons_ne_nil _ _
  digits := by
    intro byte hbyte
    rw [List.mem_singleton.mp hbyte, isDecimalDigit_iff, toNat_digitByte h]
    omega
  value := by
    show 10 * 0 + ((digitByte d).toNat - 0x30) = d
    rw [toNat_digitByte h]
    omega

/-- One more digit behind a numeral. -/
theorem Numeral.concat {text : Bytes} {n d : ℕ} (h : Numeral text n) (hd : d < 10) :
    Numeral (text ++ [digitByte d]) (10 * n + d) where
  ne_nil := List.append_ne_nil_of_left_ne_nil h.ne_nil _
  digits := by
    intro byte hbyte
    rcases List.mem_append.mp hbyte with hmem | hmem
    · exact h.digits byte hmem
    · exact (numeral_digitByte hd).digits byte hmem
  value := by
    have hvalue : digitsValue text = n := h.value
    unfold digitsValue at hvalue ⊢
    rw [List.foldl_append, hvalue]
    show 10 * n + ((digitByte d).toNat - 0x30) = 10 * n + d
    rw [toNat_digitByte hd]
    omega

theorem decimal_of_lt {n : ℕ} (h : n < 10) : decimal n = [digitByte n] := by
  rw [decimal, Nat.toDigits_of_lt_base h]
  rfl

theorem decimal_of_le {n : ℕ} (h : 10 ≤ n) : decimal n = decimal (n / 10) ++ [digitByte (n % 10)] := by
  rw [decimal, Nat.toDigits_of_base_le (by decide) h, List.map_append]
  rfl

theorem numeral_decimal (n : ℕ) : Numeral (decimal n) n := by
  induction n using Nat.strong_induction_on with
  | _ n ih =>
    rcases Nat.lt_or_ge n 10 with hlt | hle
    · rw [decimal_of_lt hlt]
      exact numeral_digitByte hlt
    · have hconcat := (ih (n / 10) (by omega)).concat (Nat.mod_lt n (by decide))
      rw [decimal_of_le hle]
      rwa [Nat.div_add_mod n 10] at hconcat

/-- What is no digit does not occur in a numeral. -/
theorem notMem_decimal {byte : UInt8} (h : isDecimalDigit byte = false) (n : ℕ) :
    byte ∉ decimal n := by
  intro hmem
  rw [(numeral_decimal n).digits byte hmem] at h
  exact nomatch h

end LibSshpp
