import LibSshpp.Foundation.Bytes

/-!
The presentation texts of `inet_ntop`: dotted decimal for IPv4 addresses, and
for IPv6 the colon form with the first longest run of at least two zero groups
written as `::` and an embedded IPv4 address in dotted form.
-/

set_option autoImplicit false
set_option relaxedAutoImplicit false

namespace LibSshpp.Posix

/-- The texts joined by a separator byte. -/
def joinBytes (separator : UInt8) : List Bytes → Bytes
  | [] => []
  | [text] => text
  | text :: others => text ++ separator :: joinBytes separator others

/-- `inet_ntop(AF_INET, …)`. -/
def inetNtop4 (address : Bytes) : Bytes :=
  joinBytes 0x2e (address.map fun byte ↦ decimal byte.toNat)

/-- The 16-bit groups of an IPv6 address. -/
def inetGroups : Bytes → List ℕ
  | high :: low :: rest => (256 * high.toNat + low.toNat) :: inetGroups rest
  | _ => []

/-- The length of the run of zero groups starting here. -/
def zeroRun (groups : List ℕ) : ℕ := (groups.takeWhile (· = 0)).length

/-- The first longest run of zero groups, as its index and length, when it has
at least two groups. -/
def longestZeroRun (groups : List ℕ) : Option (ℕ × ℕ) :=
  (List.range groups.length).foldl (fun best index ↦
    let length := zeroRun (groups.drop index)
    if 2 ≤ length ∧ (best.map Prod.snd).getD 0 < length then some (index, length) else best) none

def hexText (n : ℕ) : Bytes := (Nat.toDigits 16 n).map fun c ↦ c.toNat.toUInt8

/-- Whether the last 32 bits are printed in dotted form. -/
def embedsIpv4 (groups : List ℕ) : Option (ℕ × ℕ) → Bool
  | some (0, 6) => true
  | some (0, 5) => groups.getD 5 0 = 0xffff
  | _ => false

/-- `inet_ntop(AF_INET6, …)`. -/
def inetNtop6 (address : Bytes) : Bytes :=
  let groups := inetGroups address
  let run := longestZeroRun groups
  let plain (part : List ℕ) : List Bytes := part.map hexText
  let tail (start : ℕ) : List Bytes :=
    if embedsIpv4 groups run then
      plain ((groups.take 6).drop start) ++ [inetNtop4 (address.drop 12)]
    else plain (groups.drop start)
  match run with
  | none => joinBytes 0x3a (tail 0)
  | some (index, length) =>
    joinBytes 0x3a (plain (groups.take index)) ++ [0x3a, 0x3a] ++
      joinBytes 0x3a (tail (index + length))

example : inetNtop4 [127, 0, 0, 1] = ascii "127.0.0.1" := by decide

example : inetNtop6 [0x20, 1, 0xd, 0xb8, 0, 0, 0, 0, 0, 0, 0, 0, 0, 0, 0, 1] =
    ascii "2001:db8::1" := by decide

/-! ### The texts are C strings -/

theorem digitChar_ne_nul {digit : ℕ} (h : digit < 16) : digit.digitChar.toNat.toUInt8 ≠ 0 := by
  have hall : ∀ digit : Fin 16, digit.val.digitChar.toNat.toUInt8 ≠ 0 := by decide
  exact hall ⟨digit, h⟩

theorem nul_notMem_toDigits {base : ℕ} (hbase : 1 < base) (hle : base ≤ 16) (n : ℕ) :
    (0 : UInt8) ∉ (Nat.toDigits base n).map fun c ↦ c.toNat.toUInt8 := by
  induction n using Nat.strong_induction_on with
  | _ n ih =>
    rw [Nat.toDigits_eq_if hbase]
    split_ifs with hlt
    · simpa using (digitChar_ne_nul (hlt.trans_le hle)).symm
    · have hdiv : n / base < n := Nat.div_lt_self (by omega) hbase
      have hmod : n % base < 16 := (Nat.mod_lt n (by omega)).trans_le hle
      rw [List.map_append, List.mem_append, not_or]
      exact ⟨ih _ hdiv, by simpa using (digitChar_ne_nul hmod).symm⟩

theorem nul_notMem_joinBytes {separator : UInt8} (hseparator : separator ≠ 0) {texts : List Bytes}
    (htexts : ∀ text ∈ texts, 0 ∉ text) : 0 ∉ joinBytes separator texts := by
  induction texts with
  | nil => exact List.not_mem_nil
  | cons text others ih =>
    have hothers := ih fun other hother ↦ htexts other (List.mem_cons_of_mem _ hother)
    cases others with
    | nil => exact htexts text List.mem_cons_self
    | cons other others =>
      rw [joinBytes, List.mem_append, List.mem_cons, not_or, not_or]
      · exact ⟨htexts text List.mem_cons_self, hseparator.symm, hothers⟩
      · simp

theorem nul_notMem_inetNtop4 (address : Bytes) : 0 ∉ inetNtop4 address := by
  refine nul_notMem_joinBytes (by decide) fun text htext ↦ ?_
  obtain ⟨byte, -, rfl⟩ := List.mem_map.mp htext
  exact nul_notMem_toDigits (by decide) (by decide) byte.toNat

theorem nul_notMem_inetNtop6 (address : Bytes) : 0 ∉ inetNtop6 address := by
  have hplain (part : List ℕ) : ∀ text ∈ part.map hexText, 0 ∉ text := by
    intro text htext
    obtain ⟨group, -, rfl⟩ := List.mem_map.mp htext
    exact nul_notMem_toDigits (by decide) (by decide) group
  have htail (run : Option (ℕ × ℕ)) (start : ℕ) : 0 ∉ joinBytes 0x3a
      (if embedsIpv4 (inetGroups address) run then
        (((inetGroups address).take 6).drop start).map hexText ++ [inetNtop4 (address.drop 12)]
      else ((inetGroups address).drop start).map hexText) := by
    refine nul_notMem_joinBytes (by decide) fun text htext ↦ ?_
    split_ifs at htext
    · rcases List.mem_append.mp htext with h | h
      · exact hplain _ text h
      · rw [List.mem_singleton.mp h]
        exact nul_notMem_inetNtop4 _
    · exact hplain _ text htext
  unfold inetNtop6
  simp only
  split
  · exact htail _ 0
  · rw [List.mem_append, List.mem_append, not_or, not_or]
    exact ⟨⟨nul_notMem_joinBytes (by decide) (hplain _), by decide⟩, htail _ _⟩

end LibSshpp.Posix
