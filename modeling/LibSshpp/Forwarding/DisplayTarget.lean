import LibSshpp.Forwarding.SocksRequest
import LibSshpp.Foundation.Cut
import LibSshpp.Foundation.Error
import LibSshpp.Foundation.Stoi

/-!
`X11Forwarder::target_from_display`, which finds the target of a display such as `:0` or
`localhost:10.0`. The number of the display goes through `std::stoi`, whose exceptions are
caught; what it accepts is added to the base port without a look at its size.
-/

set_option autoImplicit false
set_option relaxedAutoImplicit false

namespace LibSshpp.Forwarding

/-- What the language leaves undefined. -/
inductive Undefined
  | signedOverflow
  deriving DecidableEq, Repr

/-- `std::to_string` of an `int`. -/
def intText (n : ℤ) : Bytes :=
  if n < 0 then 0x2d :: decimal n.natAbs else decimal n.natAbs

/-- The number in what follows the colon: the part before the first dot. -/
def numberPart (rest : Bytes) : Bytes :=
  match cutFirst 0x2e rest with
  | some (number, _) => number
  | none => rest

def malformedDisplay (message : String) : ErrorInfo where
  code := .ssh .invalidArgument
  message := message
  operation := "X11Forwarder::target_from_display"

/-- The target of a display of a host. -/
def displayTarget (host : Bytes) (displayNum : ℤ) : Except Undefined ForwardTarget :=
  if host = [] ∨ host = ascii "unix" then
    .ok (.unix { path := ascii "/tmp/.X11-unix/X" ++ intText displayNum })
  else if 6000 + displayNum < 2 ^ 31 then
    .ok (.tcp { host, port := UInt16.ofInt (6000 + displayNum) })
  else .error .signedOverflow

/-- `target_from_display`; an addition that overflows is the outer error. -/
def targetFromDisplay (display : Bytes) : Except Undefined (Result ForwardTarget) :=
  if display = [] then .ok (.error (malformedDisplay "DISPLAY is not set"))
  else
    match cutLast 0x3a display with
    | none => .ok (.error (malformedDisplay "malformed DISPLAY"))
    | some (host, rest) =>
      match stoi (numberPart rest) with
      | .error _ => .ok (.error (malformedDisplay "malformed DISPLAY"))
      | .ok displayNum => do
        let target ← displayTarget host displayNum
        pure (.ok target)

/-! ### The parts of a display -/

/-- The host and the text of the number: what is before the last colon, and what is between
it and the dot that follows, or the end. -/
inductive SplitsDisplay : Bytes → Bytes → Bytes → Prop
  | whole {number : Bytes} (host : Bytes) (hcolon : 0x3a ∉ number) (hdot : 0x2e ∉ number) :
    SplitsDisplay (host ++ 0x3a :: number) host number
  | screen {number screen : Bytes} (host : Bytes) (hcolon : 0x3a ∉ number ++ 0x2e :: screen)
    (hdot : 0x2e ∉ number) :
    SplitsDisplay (host ++ 0x3a :: (number ++ 0x2e :: screen)) host number

theorem splitsDisplay_iff {display host number : Bytes} :
    SplitsDisplay display host number ↔
      ∃ rest, cutLast 0x3a display = some (host, rest) ∧ numberPart rest = number := by
  constructor
  · intro h
    cases h with
    | whole host hcolon hdot =>
      refine ⟨number, cutLast_append hcolon host, ?_⟩
      rw [numberPart, cutFirst_eq_none_iff.mpr hdot]
    | screen host hcolon hdot =>
      refine ⟨_, cutLast_append hcolon host, ?_⟩
      rw [numberPart, cutFirst_append hdot]
  · rintro ⟨rest, hcut, rfl⟩
    obtain ⟨rfl, hcolon⟩ := cutLast_eq_some_iff.mp hcut
    unfold numberPart
    cases hdot : cutFirst 0x2e rest with
    | none => exact .whole host hcolon (cutFirst_eq_none_iff.mp hdot)
    | some cut =>
      obtain ⟨rfl, hnumber⟩ := cutFirst_eq_some_iff.mp hdot
      exact .screen host hcolon hnumber

/-- The text is the numeral of a display whose port exists. -/
def DisplayNumeral (number : Bytes) (n : ℕ) : Prop := Numeral number n ∧ 6000 + n ≤ 65535

/-- A display is answered with the target of its number, if that is a numeral of a display
whose port exists, and with an error otherwise. -/
structure AnswersDisplay (display : Bytes) (answer : Except Undefined (Result ForwardTarget)) :
    Prop where
  unixSocket : ∀ host number n, SplitsDisplay display host number → DisplayNumeral number n →
    host = [] ∨ host = ascii "unix" →
      answer = .ok (.ok (.unix { path := ascii "/tmp/.X11-unix/X" ++ decimal n }))
  tcpPort : ∀ host number n, SplitsDisplay display host number → DisplayNumeral number n →
    ¬ (host = [] ∨ host = ascii "unix") →
      ∃ port : UInt16, port.toNat = 6000 + n ∧ answer = .ok (.ok (.tcp { host, port }))
  refused : (¬ ∃ host number n, SplitsDisplay display host number ∧ DisplayNumeral number n) →
    ∃ info, answer = .ok (.error info)

/-- The display has no colon, or its number is the numeral of a display whose port exists, or
`std::stoi` does not take it. -/
def DisplayAnswerable (display : Bytes) : Prop :=
  0x3a ∉ display ∨ ∃ host number, SplitsDisplay display host number ∧
    ((∃ n, DisplayNumeral number n) ∨ ∃ error, stoi number = .error error)

/-! ### When a display is answered -/

theorem targetFromDisplay_of_no_colon {display : Bytes} (h : 0x3a ∉ display) :
    ∃ info, targetFromDisplay display = .ok (.error info) := by
  unfold targetFromDisplay
  split_ifs
  · exact ⟨_, rfl⟩
  · rw [cutLast_eq_none_iff.mpr h]
    exact ⟨_, rfl⟩

theorem targetFromDisplay_of_splits {display host number : Bytes}
    (h : SplitsDisplay display host number) :
    targetFromDisplay display = match stoi number with
      | .error _ => .ok (.error (malformedDisplay "malformed DISPLAY"))
      | .ok displayNum => (displayTarget host displayNum).map .ok := by
  obtain ⟨rest, hcut, rfl⟩ := splitsDisplay_iff.mp h
  have hsome : display ≠ [] := by
    rintro rfl
    exact nomatch hcut
  rw [targetFromDisplay, if_neg hsome, hcut]
  dsimp only
  cases stoi (numberPart rest) with
  | error error => rfl
  | ok displayNum => cases displayTarget host displayNum <;> rfl

theorem exists_splitsDisplay {display : Bytes} (h : 0x3a ∈ display) :
    ∃ host number, SplitsDisplay display host number := by
  cases hcut : cutLast 0x3a display with
  | none => exact absurd h (cutLast_eq_none_iff.mp hcut)
  | some cut => exact ⟨cut.1, numberPart cut.2, splitsDisplay_iff.mpr ⟨cut.2, hcut, rfl⟩⟩

theorem not_splitsDisplay {display host number : Bytes} (h : 0x3a ∉ display) :
    ¬ SplitsDisplay display host number := by
  intro hsplits
  obtain ⟨rest, hcut, -⟩ := splitsDisplay_iff.mp hsplits
  rw [cutLast_eq_none_iff.mpr h] at hcut
  exact nomatch hcut

/-- There is one way to split a display. -/
theorem SplitsDisplay.unique {display host number other otherNumber : Bytes}
    (h : SplitsDisplay display host number) (hother : SplitsDisplay display other otherNumber) :
    other = host ∧ otherNumber = number := by
  obtain ⟨rest, hcut, rfl⟩ := splitsDisplay_iff.mp h
  obtain ⟨rest', hcut', rfl⟩ := splitsDisplay_iff.mp hother
  obtain ⟨rfl, rfl⟩ := Prod.mk.inj (Option.some.inj (hcut'.symm.trans hcut))
  exact ⟨rfl, rfl⟩

theorem stoi_of_displayNumeral {number : Bytes} {n : ℕ} (h : DisplayNumeral number n) :
    stoi number = .ok (n : ℤ) := by
  have hsmall := h.2
  rw [stoi_numeral h.1, if_pos (by omega)]

/-- The number of a display determines its answer, where it is the only one. -/
theorem answersDisplay_of_numeral {display host number : Bytes} {n : ℕ}
    (hsplits : SplitsDisplay display host number) (hnumeral : DisplayNumeral number n) :
    AnswersDisplay display (targetFromDisplay display) := by
  have hanswer := targetFromDisplay_of_splits hsplits
  rw [stoi_of_displayNumeral hnumeral] at hanswer
  have hsame : ∀ other otherNumber m, SplitsDisplay display other otherNumber →
      DisplayNumeral otherNumber m → other = host ∧ m = n := by
    intro other otherNumber m hother hm
    obtain ⟨rfl, rfl⟩ := hsplits.unique hother
    exact ⟨rfl, hm.1.value.symm.trans hnumeral.1.value⟩
  refine ⟨fun other otherNumber m hother hm hlocal ↦ ?_,
    fun other otherNumber m hother hm hremote ↦ ?_, fun h ↦ absurd ⟨_, _, _, hsplits, hnumeral⟩ h⟩
  · obtain ⟨rfl, rfl⟩ := hsame other otherNumber m hother hm
    rw [hanswer]
    dsimp only
    rw [displayTarget, if_pos hlocal]
    rfl
  · obtain ⟨rfl, rfl⟩ := hsame other otherNumber m hother hm
    have hsmall := hm.2
    refine ⟨UInt16.ofInt (6000 + m), ?_, ?_⟩
    · rw [UInt16.ofInt, UInt16.toNat_ofNat']
      omega
    · rw [hanswer]
      dsimp only
      rw [displayTarget, if_neg hremote, if_pos (by omega)]
      rfl

/-- A display whose number is not one answers with an error only if `std::stoi` throws. -/
theorem stoi_of_refused {host number : Bytes} {display : Bytes}
    (hsplits : SplitsDisplay display host number)
    (h : ∃ info, targetFromDisplay display = .ok (.error info)) :
    ∃ error, stoi number = .error error := by
  rw [targetFromDisplay_of_splits hsplits] at h
  cases hstoi : stoi number with
  | error error => exact ⟨error, rfl⟩
  | ok displayNum =>
    rw [hstoi] at h
    obtain ⟨info, hinfo⟩ := h
    dsimp only at hinfo
    cases htarget : displayTarget host displayNum with
    | error undefined =>
      rw [htarget] at hinfo
      exact nomatch hinfo
    | ok target =>
      rw [htarget] at hinfo
      exact nomatch Except.ok.inj hinfo

/-- For every string: `target_from_display` answers it as it should exactly if it is
answerable. -/
theorem answersDisplay_iff (display : Bytes) :
    AnswersDisplay display (targetFromDisplay display) ↔ DisplayAnswerable display := by
  constructor
  · intro h
    by_cases hcolon : 0x3a ∈ display
    · obtain ⟨host, number, hsplits⟩ := exists_splitsDisplay hcolon
      refine .inr ⟨host, number, hsplits, ?_⟩
      by_cases hnumeral : ∃ n, DisplayNumeral number n
      · exact .inl hnumeral
      · refine .inr (stoi_of_refused hsplits (h.refused ?_))
        rintro ⟨other, otherNumber, n, hother, hn⟩
        obtain ⟨rfl, rfl⟩ := hsplits.unique hother
        exact hnumeral ⟨n, hn⟩
    · exact .inl hcolon
  · rintro (hcolon | ⟨host, number, hsplits, ⟨n, hnumeral⟩ | ⟨error, hstoi⟩⟩)
    · exact ⟨fun _ _ _ h ↦ absurd h (not_splitsDisplay hcolon),
        fun _ _ _ h ↦ absurd h (not_splitsDisplay hcolon),
        fun _ ↦ targetFromDisplay_of_no_colon hcolon⟩
    · exact answersDisplay_of_numeral hsplits hnumeral
    · have hnone : ∀ other otherNumber n, SplitsDisplay display other otherNumber →
          ¬ DisplayNumeral otherNumber n := by
        intro other otherNumber n hother hn
        obtain ⟨rfl, rfl⟩ := hsplits.unique hother
        rw [stoi_of_displayNumeral hn] at hstoi
        exact nomatch hstoi
      refine ⟨fun _ _ _ h hn ↦ absurd hn (hnone _ _ _ h), fun _ _ _ h hn ↦
        absurd hn (hnone _ _ _ h), fun _ ↦ ⟨malformedDisplay "malformed DISPLAY", ?_⟩⟩
      rw [targetFromDisplay_of_splits hsplits, hstoi]

/-- A display beyond the ports is one of another port; text behind the number is ignored; a
sign is taken; and the addition overflows. -/
theorem targetFromDisplay_malformed :
    targetFromDisplay (ascii "host:59558") =
        .ok (.ok (.tcp { host := ascii "host", port := 22 })) ∧
      targetFromDisplay (ascii "host:1x.0") =
        .ok (.ok (.tcp { host := ascii "host", port := 6001 })) ∧
      targetFromDisplay (ascii ":-1") =
        .ok (.ok (.unix { path := ascii "/tmp/.X11-unix/X-1" })) ∧
      targetFromDisplay (ascii "host:2147483647") = .error .signedOverflow ∧
      ¬ AnswersDisplay (ascii "host:2147483647")
        (targetFromDisplay (ascii "host:2147483647")) := by
  have hoverflow : targetFromDisplay (ascii "host:2147483647") = .error .signedOverflow := by
    decide +kernel
  refine ⟨by decide +kernel, by decide +kernel, by decide +kernel, hoverflow, fun h ↦ ?_⟩
  have hsplits : SplitsDisplay (ascii "host:2147483647") (ascii "host") (ascii "2147483647") :=
    splitsDisplay_iff.mpr ⟨ascii "2147483647", by decide +kernel, by decide +kernel⟩
  have hrefused := h.refused ?_
  · obtain ⟨info, hinfo⟩ := hrefused
    rw [hoverflow] at hinfo
    exact nomatch hinfo
  · rintro ⟨_, _, n, hother, hnumeral⟩
    obtain ⟨-, rfl⟩ := hsplits.unique hother
    have hvalue : digitsValue (ascii "2147483647") = n := hnumeral.1.value
    have hlarge : digitsValue (ascii "2147483647") = 2147483647 := by decide +kernel
    have hsmall := hnumeral.2
    omega

end LibSshpp.Forwarding
