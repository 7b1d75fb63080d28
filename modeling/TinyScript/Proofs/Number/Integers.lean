import TinyScript.Proofs.Number.Unpacked
import TinyScript.Number.Read
import TinyScript.Number.Text

/-!
# Integers as text

An integer below the limit is displayed by its digits, behind a minus sign if it is negative
(`display_ofInt`), and its digits are read as the number that it is (`read?_toDigits`).
-/

namespace TinyScript
namespace Number

open Float.Model

/-! ## Reading digits -/

/-- Zeros in front of an integer do not count. -/
theorem ofDigits_dropWhile_zero
    (digits : List Char) :
    ofDigits (digits.dropWhile (· == '0')) = ofDigits digits := by
  induction digits with
  | nil => rfl
  | cons digit rest ih =>
    by_cases zero : digit = '0'
    · subst zero
      exact ih
    · rw [List.dropWhile_cons_of_neg (by simpa using zero)]

/-- Digits are no letters, and have none when they are lowered. -/
theorem isLower_toLower_of_isDigit
    {c : Char}
    (digit : c.isDigit = true) :
    c.toLower.isLower = false := by
  rw [Char.isDigit_iff_toNat] at digit
  rw [Char.isLower_toLower_eq_isAlpha]
  simp [Char.isAlpha, Char.isUpper, Char.isLower, UInt32.le_iff_toNat_le] at digit ⊢
  omega

theorem ofDecimal_of_short
    {digits : List Char}
    (short : digits.length ≤ 400) :
    ofDecimal digits 0 = Float.ofNat (ofDigits digits) := by
  cases digits with
  | nil => rfl
  | cons digit rest =>
    have kept : condense (digit :: rest) = digit :: rest :=
      condense_of_length_le (Nat.le_trans short (by decide))
    rw [ofDecimal, if_neg, if_neg, kept]
    · simp [Float.ofNat]
      rfl
    · omega
    · simp
      omega

theorem splitSign_of_digits
    {digits : List Char}
    (each : ∀ c ∈ digits, c.isDigit = true) :
    splitSign digits = (false, digits) := by
  unfold splitSign
  split
  · exact absurd (each '-' List.mem_cons_self) (by decide)
  · exact absurd (each '+' List.mem_cons_self) (by decide)
  · rfl

/-- Digits are read as a decimal without an exponent. -/
theorem read?_of_digits
    {digits : List Char}
    (nonempty : digits ≠ [])
    (each : ∀ c ∈ digits, c.isDigit = true) :
    read? digits = some (ofDecimal (digits.dropWhile (· == '0')) 0) := by
  have noWord : ∀ word : List Char, word.any Char.isLower = true →
      digits.map Char.toLower ≠ word := by
    rintro word letters rfl
    obtain ⟨lowered, mem, isLower⟩ := List.any_eq_true.1 letters
    obtain ⟨c, inDigits, rfl⟩ := List.mem_map.1 mem
    rw [isLower_toLower_of_isDigit (each c inDigits)] at isLower
    cases isLower
  have whole : digits.takeWhile Char.isDigit = digits := List.takeWhile_eq_self_iff.2 each
  have behind : digits.dropWhile Char.isDigit = [] := List.dropWhile_eq_nil_iff.2 each
  have decimal : readDecimal? digits = some (ofDecimal (digits.dropWhile (· == '0')) 0) := by
    rw [readDecimal?]
    simp only [whole, behind]
    rw [if_neg fun both => nonempty both.1]
    simp only [readExponent?, Option.map_some, List.append_nil, List.length_nil, Nat.cast_zero,
      sub_zero]
  rw [read?, splitSign_of_digits each]
  simp only
  rw [if_neg, if_neg (noWord _ (by decide)), decimal]
  · rfl
  · exact not_or.2 ⟨noWord _ (by decide), noWord _ (by decide)⟩

/-- A plus sign does not count. -/
theorem read?_plus
    {digits : List Char}
    (each : ∀ c ∈ digits, c.isDigit = true) :
    read? ('+' :: digits) = read? digits := by
  rw [read?, read?, splitSign_of_digits each]
  rfl

/-- Not too many digits are read as the number nearest to the integer that they are. -/
theorem read?_of_short_digits
    {digits : List Char}
    (nonempty : digits ≠ [])
    (each : ∀ c ∈ digits, c.isDigit = true)
    (short : digits.length ≤ 400) :
    read? digits = some (Float.ofNat (ofDigits digits)) := by
  have significant : (digits.dropWhile (· == '0')).length ≤ 400 :=
    Nat.le_trans (List.dropWhile_sublist _).length_le short
  rw [read?_of_digits nonempty each, ofDecimal_of_short significant, ofDigits_dropWhile_zero]

theorem ofDigits_toDigits
    (m : Nat) :
    ofDigits (Nat.toDigits 10 m) = m :=
  Nat.ofDigitChars_eq_foldl.symm.trans Nat.ofDigitChars_ten_toDigits

theorem isDigit_toDigits
    (m : Nat) :
    ∀ c ∈ Nat.toDigits 10 m, c.isDigit = true :=
  fun _ mem => Nat.isDigit_of_mem_toDigits (by decide) (by decide) mem

/-- The digits of an integer are read as that integer. -/
theorem read?_toDigits
    {m : Nat}
    (small : m < integerLimit) :
    read? (Nat.toDigits 10 m) = some (Float.ofNat m) := by
  have few : (Nat.toDigits 10 m).length ≤ 15 :=
    (Nat.length_toDigits_le_iff (by decide) (by decide)).2 small
  have short := Nat.le_trans few (by decide : 15 ≤ 400)
  rw [read?_of_short_digits Nat.toDigits_ne_nil (isDigit_toDigits m) short, ofDigits_toDigits]

/-! ## Displaying integers -/

/-- The exact value of a positive integer of at most 53 bits, as it is stored. -/
def Exact.ofInteger (negative : Bool) (m : Nat) : Exact :=
  { negative := negative, mantissa := m * 2 ^ (52 - m.log2), exponent := m.log2 - 52 }

theorem isWhole_ofInteger
    (negative : Bool)
    (m : Nat) :
    (Exact.ofInteger negative m).isWhole = true := by
  simp [Exact.isWhole, Exact.ofInteger, Nat.one_shiftLeft]

section Integers

variable {m : Nat} (positive : 0 < m) (small : m < 2 ^ 53)

include positive small

theorem exact_ofNat :
    Exact.ofFloat? (Float.ofNat m) = some (.ofInteger false m) := by
  rw [ofFloat?_eq_ofUnpacked?, unpack_ofNat positive small]
  rfl

theorem exact_neg_ofNat :
    Exact.ofFloat? (-Float.ofNat m) = some (.ofInteger true m) := by
  have length := log2_le_of_lt positive small
  rw [ofFloat?_eq_ofUnpacked?]
  change Exact.ofUnpacked? (Float.Model.pack (Float.ofNat m).toModel.unpack.neg).unpack = _
  rw [unpack_ofNat positive small]
  change Exact.ofUnpacked? (Float.Model.pack (.finite .negative _ _ _)).unpack = _
  rw [unpack_pack_finite (log2_shifted positive small) (by omega) (by omega)]
  rfl

theorem wholePart_ofInteger
    (negative : Bool) :
    (Exact.ofInteger negative m).wholePart = m := by
  have length := log2_le_of_lt positive small
  unfold Exact.wholePart Exact.ofInteger
  split
  · have same : m.log2 = 52 := by
      simp only at *
      omega
    simp [same]
  · have same : (-((m.log2 : Int) - 52)).toNat = 52 - m.log2 := by omega
    simp only [same, Nat.shiftRight_eq_div_pow]
    exact Nat.mul_div_cancel m (by positivity)

end Integers

theorem display_of_exact
    {x : Float}
    {m : Nat}
    {negative : Bool}
    (exact : Exact.ofFloat? x = some (.ofInteger negative m))
    (positive : 0 < m)
    (small : m < integerLimit) :
    display x = toString (if negative then -(m : Int) else m) := by
  have stored : m < 2 ^ 53 := Nat.lt_trans small (by decide)
  have whole := wholePart_ofInteger positive stored negative
  rw [display, exact]
  simp only [isWhole_ofInteger, whole, Exact.toInt, decide_eq_true small,
    Bool.and_self, if_true]
  rfl

/-- Integers are displayed without a point. -/
theorem display_ofInt
    {n : Int}
    (small : n.natAbs < integerLimit) :
    display (Float.ofInt n) = toString n := by
  cases n with
  | ofNat m =>
    rcases Nat.eq_zero_or_pos m with rfl | positive
    · rfl
    · have stored : m < 2 ^ 53 := Nat.lt_trans small (by decide)
      exact display_of_exact (exact_ofNat positive stored) positive small
  | negSucc m =>
    have stored : m + 1 < 2 ^ 53 := Nat.lt_trans small (by decide)
    exact display_of_exact (exact_neg_ofNat m.succ_pos stored) m.succ_pos small

/-- The sign of a zero is not displayed. -/
theorem display_zero :
    display 0 = "0" ∧ display (-0) = "0" :=
  ⟨rfl, rfl⟩

/-- Equal numbers are displayed alike: zero is shown without its sign. -/
theorem display_eq_of_beq
    {x y : Float}
    (same : (x == y) = true) :
    display x = display y := by
  obtain ⟨_, _, rfl | ⟨rfl, rfl⟩ | ⟨rfl, rfl⟩⟩ := Float.beq_iff_ne_nan_and_eq.1 same
  · rfl
  · exact display_zero.1.trans display_zero.2.symm
  · exact display_zero.2.trans display_zero.1.symm

end Number
end TinyScript
