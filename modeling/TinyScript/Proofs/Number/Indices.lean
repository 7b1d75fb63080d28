import TinyScript.Number.Read
import TinyScript.Proofs.Number.Denoting

/-!
# Numbers as indices

An element of an array is written at the integer part of a number and read at the place that the
text of the number says.  Below 2 ^ 53 the two agree for integers, and the text of any other number
says no place (`readIndex?_display`).  They agree for texts of digits (`readIndex?_of_isCount`), and
no other text says a place (`readIndex?_of_not_isCount`).  What a number counts to is its integer
part as a rational number (`index?_eq_some_iff`).
-/

namespace TinyScript
namespace Number

open Float.Model
open Float.Model.UnpackedFloat

/-! ## Digits as indices -/

/-- A text is decimal digits, behind a plus sign or not. -/
def IsCount (text : List Char) : Prop :=
  ∃ digits, (text = digits ∨ text = '+' :: digits) ∧ digits ≠ [] ∧ ∀ c ∈ digits, c.isDigit = true

section Digits

variable {digits text : List Char}

/-- The first digit of an integer is worth as much as the number of digits says. -/
theorem pow_le_ofDigits
    {first : Char}
    {rest : List Char}
    (digit : first.isDigit = true)
    (nonzero : first ≠ '0') :
    10 ^ rest.length ≤ ofDigits (first :: rest) := by
  have value : 1 ≤ appendDigit 0 first := by
    rw [Char.isDigit_iff_toNat] at digit
    have zero : first.toNat ≠ '0'.toNat := fun same => nonzero (Char.toNat_inj.1 same)
    have code : '0'.toNat = 48 := rfl
    unfold appendDigit
    omega
  calc
    10 ^ rest.length ≤ appendDigit 0 first * 10 ^ rest.length := Nat.le_mul_of_pos_left _ value
    _ ≤ ofDigits (first :: rest) := by
      rw [ofDigits, List.foldl_cons, foldl_appendDigit_eq]
      exact Nat.le_add_right _ _

/-- An integer of less than 64 bits has at most twenty digits that count. -/
theorem ofDigits64?_eq
    (each : ∀ c ∈ digits, c.isDigit = true) :
    ofDigits64? digits =
      if ofDigits digits < UInt64.size then some (ofDigits digits) else none := by
  unfold ofDigits64?
  simp only [ofDigits_dropWhile_zero]
  by_cases small : ofDigits digits < UInt64.size
  · have few : (digits.dropWhile (· == '0')).length ≤ 20 := by
      cases significant : digits.dropWhile (· == '0') with
      | nil => simp
      | cons first rest =>
        have nonzero : first ≠ '0' := by
          have head := List.head?_dropWhile_not (· == '0') digits
          rw [significant] at head
          simpa using head
        have digit : first.isDigit = true := by
          refine each first ((List.dropWhile_sublist (· == '0')).mem ?_)
          rw [significant]
          exact List.mem_cons_self
        have large := @pow_le_ofDigits first rest digit nonzero
        rw [← significant, ofDigits_dropWhile_zero] at large
        have below : 10 ^ rest.length < 10 ^ 20 :=
          Nat.lt_of_le_of_lt large (Nat.lt_trans small (by decide))
        exact (Nat.pow_lt_pow_iff_right (by decide)).1 below
    simp [few, small]
  · simp [small]

theorem readIndex?_of_digits
    (nonempty : digits ≠ [])
    (each : ∀ c ∈ digits, c.isDigit = true) :
    readIndex? digits = ofDigits64? digits := by
  have all : digits.all Char.isDigit = true := List.all_eq_true.2 each
  obtain ⟨first, rest, rfl⟩ := List.exists_cons_of_ne_nil nonempty
  have unsigned : first ≠ '+' := by
    rintro rfl
    exact absurd (each '+' List.mem_cons_self) (by decide)
  simp only [readIndex?]
  split
  · rename_i same
    exact absurd (List.cons.inj same).1 unsigned
  · exact if_pos ⟨nonempty, all⟩

theorem readIndex?_plus
    (nonempty : digits ≠ [])
    (each : ∀ c ∈ digits, c.isDigit = true) :
    readIndex? ('+' :: digits) = ofDigits64? digits :=
  if_pos ⟨nonempty, List.all_eq_true.2 each⟩

/-- Only a text of digits says a place. -/
theorem readIndex?_of_not_isCount
    (other : ¬ IsCount text) :
    readIndex? text = none := by
  refine if_neg fun ⟨nonempty, all⟩ => other ?_
  revert nonempty all
  split <;> intro nonempty all
  · exact ⟨_, .inr rfl, nonempty, List.all_eq_true.1 all⟩
  · exact ⟨_, .inl rfl, nonempty, List.all_eq_true.1 all⟩

end Digits
/-! ## Integers of more than 53 bits -/

theorem mantissa_shiftRight
    (value : ExtendedMantissa)
    (count : Nat) :
    (value >>> count).mantissa = value.mantissa / 2 ^ count := by
  induction count with
  | zero => simp [HShiftRight.hShiftRight, Nat.repeat]
  | succ count ih =>
    change (value >>> count).mantissa / 2 = _
    rw [ih, Nat.div_div_eq_div_mul, Nat.pow_succ]

/-- Rounding takes nothing away from a mantissa. -/
theorem le_roundedMantissa
    (value : ExtendedMantissa) :
    value.mantissa ≤ value.roundedMantissa := by
  obtain ⟨mantissa, round, sticky⟩ := value
  cases round <;> cases sticky <;>
    simp [ExtendedMantissa.roundedMantissa, ExtendedMantissa.accuracy,
      Accuracy.roundToNearestEven]

/-- A value of 53 bits or more is cut to 53 bits. -/
theorem shiftToTargetExponent_exact_of_le
    {mantissa : Nat}
    {exponent : Int}
    (long : 52 ≤ mantissa.log2)
    (above : -1074 ≤ exponent) :
    (shiftToTargetExponent Format.binary64 mantissa exponent .exact).1.mantissa =
        mantissa / 2 ^ (mantissa.log2 - 52) ∧
      (shiftToTargetExponent Format.binary64 mantissa exponent .exact).2 =
        exponent + (mantissa.log2 - 52 : Nat) := by
  have target : Format.binary64.targetExponent (totalExponent mantissa exponent) =
      exponent + (mantissa.log2 - 52 : Nat) := by
    simp only [Format.targetExponent, Format.minExponent, Format.mantissaBits, totalExponent]
    simp
    omega
  have shift : (exponent + ((mantissa.log2 - 52 : Nat) : Int) - exponent).toNat =
      mantissa.log2 - 52 := by omega
  simp only [shiftToTargetExponent, target, shiftToExponent, shift]
  exact ⟨mantissa_shiftRight _ _, trivial⟩

theorem div_two_pow_bounds
    {mantissa : Nat}
    (long : 52 ≤ mantissa.log2) :
    2 ^ 52 ≤ mantissa / 2 ^ (mantissa.log2 - 52) ∧
      mantissa / 2 ^ (mantissa.log2 - 52) < 2 ^ 53 := by
  have nonzero : mantissa ≠ 0 := by
    rintro rfl
    simp at long
  have whole : 52 + (mantissa.log2 - 52) = mantissa.log2 := by omega
  constructor
  · rw [Nat.le_div_iff_mul_le (Nat.two_pow_pos _), ← Nat.pow_add, whole]
    exact Nat.log2_self_le nonzero
  · rw [Nat.div_lt_iff_lt_mul (Nat.two_pow_pos _), ← Nat.pow_add, Nat.succ_add 52, whole]
    exact Nat.lt_log2_self

/-- A value is rounded to 53 bits, and the exponent of its first bit does not fall. -/
theorem exists_roundWithAccuracy
    (sign : Sign)
    {mantissa : Nat}
    {exponent : Int}
    (long : 52 ≤ mantissa.log2)
    (above : -1074 ≤ exponent) :
    ∃ (rounded : Nat) (power : Int) (positive : 0 < rounded),
      roundWithAccuracy Format.binary64 sign mantissa exponent .exact =
        .finite sign rounded power positive ∧
      rounded.log2 = 52 ∧ exponent + mantissa.log2 - 52 ≤ power := by
  obtain ⟨cut, power⟩ := shiftToTargetExponent_exact_of_le long above
  obtain ⟨low, -⟩ := div_two_pow_bounds long
  rw [roundWithAccuracy]
  generalize shiftToTargetExponent Format.binary64 mantissa exponent .exact = first at *
  obtain ⟨kept, exponent₁⟩ := first
  simp only at cut power
  have below := le_roundedMantissa kept
  rw [cut] at below
  -- What is added may carry into one more bit, so the value is cut a second time.
  simp only
  generalize kept.roundedMantissa = rounded at *
  have least : 2 ^ 52 ≤ rounded := Nat.le_trans low below
  have longAgain : 52 ≤ rounded.log2 := (Nat.le_log2 (by omega)).2 least
  obtain ⟨cutAgain, powerAgain⟩ :=
    @shiftToTargetExponent_exact_of_le rounded exponent₁ longAgain (by omega)
  obtain ⟨lowAgain, highAgain⟩ := div_two_pow_bounds longAgain
  rw [← cutAgain] at lowAgain highAgain
  have positive : 0 < (shiftToTargetExponent Format.binary64 rounded exponent₁ .exact).1.mantissa :=
    by omega
  refine ⟨_, _, positive, dif_neg positive.ne', ?_, ?_⟩
  · rw [Nat.log2_eq_iff positive.ne']
    exact ⟨lowAgain, highAgain⟩
  · omega

theorem ofScientific_eq_round
    {m : Nat}
    (nonzero : m ≠ 0) :
    UnpackedFloat.ofScientific Format.binary64 m 0 =
      roundWithAccuracy Format.binary64 .positive (m <<< 53) (-53) .exact := by
  have small : ¬ (2048 : Int) < -(m.log2 : Int) := by omega
  have sign : Sign.positive * Sign.positive = .positive := rfl
  simp [UnpackedFloat.ofScientific, nonzero, UnpackedFloat.mul, Format.mantissaBits, small, sign]

/-- A value beyond the range of numbers is packed as an infinite one. -/
theorem pack_finite_of_le
    {sign : Sign}
    {mantissa : Nat}
    {exponent : Int}
    {positive : 0 < mantissa}
    (above : 972 ≤ exponent) :
    pack (.finite sign mantissa exponent positive) = pack (.infinity sign) := by
  have beyond : 2 ^ Format.binary64.exponentBits ≤
      (exponent + (Format.binary64.exponentBias : Int) +
        (Format.binary64.mantissaBitsWithoutImplicit : Int)).toNat + 1 := by
    simp [Format.exponentBias]
    omega
  have packed : UnpackedFloat.pack Format.binary64 (.finite sign mantissa exponent positive) =
      UnpackedFloat.pack Format.binary64 (.infinity sign) :=
    if_pos beyond
  simp only [Float.Model.pack, packed]

/-- An integer of more than 53 bits is rounded to one that has as many, or becomes infinite. -/
theorem le_wholePart_of_ofNat
    {m : Nat}
    {e : Exact}
    (large : 2 ^ 53 ≤ m)
    (exact : Exact.ofFloat? (Float.ofNat m) = some e) :
    2 ^ 53 ≤ e.wholePart := by
  have nonzero : m ≠ 0 := by omega
  have slow : Float.ofNat m =
      .ofModel (pack (UnpackedFloat.ofScientific Format.binary64 m 0)) :=
    dif_neg fun fast => absurd fast.1 (by omega)
  have length : (m <<< 53).log2 = m.log2 + 53 := by
    rw [Nat.shiftLeft_eq, log2_mul_two_pow nonzero]
  have long : 53 ≤ m.log2 := (Nat.le_log2 nonzero).2 large
  obtain ⟨rounded, power, positive, same, bits, above⟩ :=
    @exists_roundWithAccuracy .positive (m <<< 53) (-53) (by omega) (by decide)
  rw [ofFloat?_eq_ofUnpacked?, slow, ofScientific_eq_round nonzero, same] at exact
  change Exact.ofUnpacked? (pack (.finite .positive rounded power positive)).unpack = some e
    at exact
  by_cases within : power < 972
  · rw [unpack_pack_finite bits (by omega) within] at exact
    cases exact
    have least : 2 ^ 52 ≤ rounded := by
      rw [← bits]
      exact Nat.log2_self_le positive.ne'
    obtain ⟨shift, rfl⟩ : ∃ shift : Nat, power = shift + 1 := ⟨(power - 1).toNat, by omega⟩
    rw [Exact.wholePart, if_pos (by simp only; omega), Nat.shiftLeft_eq]
    calc
      2 ^ 53 = 2 ^ 52 * 2 ^ 1 := rfl
      _ ≤ rounded * 2 ^ ((shift : Int) + 1).toNat :=
        Nat.mul_le_mul least (Nat.pow_le_pow_right (by decide) (by omega))
  · rw [pack_finite_of_le (by omega)] at exact
    cases exact

/-! ## The place that a number points at -/

section Places

variable {x : Float} {e : Exact} {n : Nat} {text : List Char}

theorem lt_zero_of_negative
    (exact : Exact.ofFloat? x = some e)
    (negative : e.negative = true)
    (nonzero : e.mantissa ≠ 0) :
    x < 0.0 := by
  refine decide_eq_true ?_
  change x.toModel.unpack.lt (.zero .positive) = true
  rw [ofFloat?_eq_ofUnpacked?] at exact
  cases parts : x.toModel.unpack with
  | notANumber | infinity =>
    rw [parts] at exact
    cases exact
  | zero sign =>
    rw [parts] at exact
    cases exact
    exact absurd rfl nonzero
  | finite sign mantissa exponent positive =>
    rw [parts] at exact
    cases exact
    cases sign with
    | positive => cases negative
    | negative => rfl

/-- A number that points at a place is finite and not below zero. -/
theorem exact_of_index?
    (found : index? x = some n) :
    ∃ e, Exact.ofFloat? x = some e ∧ e.wholePart = n ∧
      (e.negative = true → e.mantissa = 0) := by
  unfold index? at found
  split at found
  · cases found
  · rename_i notBelow
    obtain ⟨e, exact, whole⟩ := Option.map_eq_some_iff.1 found
    refine ⟨e, exact, whole, fun negative => ?_⟩
    by_contra nonzero
    exact notBelow (lt_zero_of_negative exact negative nonzero)

theorem magnitude_ofInteger
    (positive : 0 < n)
    (small : n < 2 ^ 53) :
    (Exact.ofInteger false n).magnitude = n := by
  rw [magnitude_of_isWhole (isWhole_ofInteger false n), wholePart_ofInteger positive small]

/-- An integer that is not below zero and has 53 bits at most is the number that its integer part
is converted to. -/
theorem beq_ofNat_of_isWhole
    (exact : Exact.ofFloat? x = some e)
    (notBelow : e.negative = true → e.mantissa = 0)
    (whole : e.isWhole = true)
    (small : e.wholePart < 2 ^ 53) :
    (x == Float.ofNat e.wholePart) = true := by
  rcases Nat.eq_zero_or_pos e.mantissa with zero | positive
  · rw [(wholePart_eq_zero_iff whole).2 zero]
    rcases eq_zero_of_mantissa exact zero with rfl | rfl <;> rfl
  · have above : 0 < e.wholePart :=
      Nat.pos_of_ne_zero fun none => positive.ne' ((wholePart_eq_zero_iff whole).1 none)
    have converted := exact_ofNat above small
    have surrounds : e.Surrounds e.wholePart := by
      rw [← magnitude_of_isWhole whole]
      exact Exact.surrounds_magnitude positive
    have surroundsToo : (Exact.ofInteger false e.wholePart).Surrounds e.wholePart := by
      conv => arg 2; rw [← magnitude_ofInteger above small]
      refine Exact.surrounds_magnitude ?_
      simp only [Exact.ofInteger]
      positivity
    have sign : e.negative = (Exact.ofInteger false e.wholePart).negative :=
      Bool.eq_false_iff.2 fun negative => positive.ne' (notBelow negative)
    rw [eq_of_surrounds exact converted sign surrounds surroundsToo]
    exact beq_self_of_ofFloat? converted

/-- An integer of 53 bits at most is displayed by its digits. -/
theorem digits_display_ofNat
    (small : n < 2 ^ 53) :
    ∃ digits, (display (Float.ofNat n)).toList = digits ∧ digits ≠ [] ∧
      (∀ c ∈ digits, c.isDigit = true) ∧ ofDigits digits = n := by
  rcases Nat.eq_zero_or_pos n with rfl | positive
  · exact ⟨['0'], by rfl, by decide, by simp, rfl⟩
  · have exact := exact_ofNat positive small
    have whole := wholePart_ofInteger positive small false
    have length := log2_le_of_lt positive small
    refine ⟨magnitudeDigits (.ofInteger false n), toList_display exact, ?_⟩
    unfold magnitudeDigits
    split
    · rw [whole]
      exact ⟨Nat.toDigits_ne_nil, isDigit_toDigits n, ofDigits_toDigits n⟩
    · have same : (52 - n.log2 : Nat) = (-((n.log2 : Int) - 52)).toNat := by omega
      obtain ⟨integral, digits⟩ := @shortest_of_whole (.ofInteger false n) n positive small
        (by simp only [Exact.ofInteger]; omega) (by simp only [Exact.ofInteger]; rw [same])
      have each := (shortest (.ofInteger false n)).isDigit_positional integral
      refine ⟨?_, each, ?_⟩
      · rw [Decimal.positional_of_nonneg _ integral]
        simp
      · rw [Decimal.ofDigits_positional _ integral, digits]

/-- A fraction is displayed with a point. -/
theorem point_mem_display
    (exact : Exact.ofFloat? x = some e)
    (fraction : e.isWhole = false) :
    '.' ∈ (display x).toList := by
  have positive : 0 < e.mantissa := by
    refine Nat.pos_of_ne_zero fun zero => ?_
    rw [(isWhole_of_mantissa_eq_zero zero).1] at fraction
    cases fraction
  obtain ⟨whole, behind, text, -⟩ :=
    (shortest e).exists_positional_of_neg (exponent_shortest_neg positive fraction)
  have digits : magnitudeDigits e = (shortest e).positional :=
    if_neg (by rw [fraction, Bool.false_and]; exact Bool.false_ne_true)
  rw [toList_display exact, digits, text]
  simp

theorem not_isCount_of_point
    (point : '.' ∈ text) :
    ¬ IsCount text := by
  rintro ⟨digits, rfl | rfl, -, each⟩
  · exact absurd (each '.' point) (by decide)
  · rcases List.mem_cons.1 point with same | behind
    · exact absurd same (by decide)
    · exact absurd (each '.' behind) (by decide)

/-- An integer is the number that it is converted to, unless it is rounded. -/
theorem wholePart_of_ofNat
    (exact : Exact.ofFloat? (Float.ofNat n) = some e)
    (small : e.wholePart < 2 ^ 53) :
    e.wholePart = n := by
  by_cases many : 2 ^ 53 ≤ n
  · exact absurd (le_wholePart_of_ofNat many exact) (by omega)
  · rcases Nat.eq_zero_or_pos n with rfl | positive
    · have zero : Exact.ofFloat? (Float.ofNat 0) =
          some { negative := false, mantissa := 0, exponent := -1074 } := by rfl
      rw [zero] at exact
      cases exact
      rfl
    · rw [exact_ofNat positive (by omega)] at exact
      cases exact
      exact wholePart_ofInteger positive (by omega) false

/-- An integer is equal to the place that it points at. -/
theorem beq_ofNat_of_index?
    {m : Nat}
    (integer : (x == Float.ofNat m) = true)
    (found : index? x = some n)
    (small : n < 2 ^ 53) :
    (x == Float.ofNat n) = true := by
  obtain ⟨e, exact, rfl, -⟩ := exact_of_index? found
  obtain ⟨-, -, rfl | zeros⟩ := Float.beq_iff_ne_nan_and_eq.1 integer
  · rwa [wholePart_of_ofNat exact small]
  · have zero : index? x = some 0 := by
      rcases zeros with ⟨rfl, -⟩ | ⟨rfl, -⟩ <;> rfl
    obtain same : e.wholePart = 0 := Option.some.inj (found.symm.trans zero)
    rw [same]
    rcases zeros with ⟨rfl, -⟩ | ⟨rfl, -⟩ <;> rfl

theorem ofDecimal_of_long
    {digits : List Char}
    (long : 400 < digits.length) :
    ofDecimal digits 0 = infinity := by
  have nonempty : digits.isEmpty = false := by
    cases digits with
    | nil => simp at long
    | cons => rfl
  rw [ofDecimal, if_neg (by simp [nonempty]), if_pos (by omega)]

/-- Digits that are read as a number which points at a place are the digits of this place. -/
theorem ofDigits_eq_of_index?
    {digits : List Char}
    (found : index? (ofDecimal (digits.dropWhile (· == '0')) 0) = some n)
    (small : n < 2 ^ 53) :
    ofDigits digits = n := by
  obtain ⟨e, exact, rfl, -⟩ := exact_of_index? found
  by_cases short : (digits.dropWhile (· == '0')).length ≤ 400
  · rw [ofDecimal_of_short short, ofDigits_dropWhile_zero] at exact
    exact (wholePart_of_ofNat exact small).symm
  · rw [ofDecimal_of_long (by omega)] at exact
    cases exact

theorem display_of_isNaN
    (noNumber : x.isNaN = true) :
    display x = "NaN" := by
  have exact : Exact.ofFloat? x = none := by
    cases exact : Exact.ofFloat? x with
    | none => rfl
    | some e =>
      rw [isNaN_of_ofFloat? exact] at noNumber
      cases noNumber
  rw [display, exact]
  exact if_pos noNumber

theorem head_of_isCount
    {first : Char}
    {rest : List Char}
    (count : IsCount (first :: rest)) :
    first = '+' ∨ first.isDigit = true := by
  obtain ⟨digits, rfl | plus, -, each⟩ := count
  · exact .inr (each first List.mem_cons_self)
  · exact .inl (List.cons.inj plus).1

/-- A number that is displayed by digits alone is finite and not below zero. -/
theorem exact_of_isCount
    (count : IsCount (display x).toList) :
    ∃ e, Exact.ofFloat? x = some e ∧ (e.negative = true → e.mantissa = 0) ∧
      (display x).toList = magnitudeDigits e ∧ ∀ c ∈ magnitudeDigits e, c.isDigit = true := by
  by_cases isNumber : x.isNaN = false
  case neg =>
    rw [display_of_isNaN (Bool.not_eq_false _ ▸ isNumber)] at count
    exact absurd (head_of_isCount count) (by decide)
  rcases exact_or_infinity isNumber with ⟨e, exact⟩ | rfl | rfl
  · have text := toList_display exact
    obtain ⟨first, rest, begins, digit, -⟩ := exists_cons_magnitudeDigits e
    have unsigned : ¬ (e.negative && e.mantissa != 0) = true := by
      intro signed
      rw [text, if_pos signed] at count
      exact absurd (head_of_isCount count) (by decide)
    rw [if_neg unsigned, List.nil_append] at text
    refine ⟨e, exact, fun negative => by simpa [negative] using unsigned, text, ?_⟩
    rw [text] at count
    obtain ⟨digits, same | plus, -, each⟩ := count
    · rwa [same]
    · rw [begins] at plus
      obtain ⟨rfl, -⟩ := List.cons.inj plus
      cases digit
  · rw [display_infinity.1] at count
    exact absurd (head_of_isCount count) (by decide)
  · rw [display_infinity.2] at count
    exact absurd (head_of_isCount count) (by decide)

/-- A number whose text says a place is the integer that the place is. -/
theorem beq_ofNat_of_readIndex?_display
    (read : readIndex? (display x).toList = some n)
    (small : n < 2 ^ 53) :
    (x == Float.ofNat n) = true := by
  have count : IsCount (display x).toList := by
    by_contra other
    rw [readIndex?_of_not_isCount other] at read
    cases read
  obtain ⟨e, exact, notBelow, text, each⟩ := exact_of_isCount count
  obtain ⟨first, rest, begins, -⟩ := exists_cons_magnitudeDigits e
  have nonempty : magnitudeDigits e ≠ [] := by simp [begins]
  rw [text, readIndex?_of_digits nonempty each, ofDigits64?_eq each] at read
  split at read
  case isFalse => cases read
  have value : valueOf (magnitudeDigits e) = n := by
    rw [valueOf_of_digits each, Option.some.inj read]
  rcases Nat.eq_zero_or_pos e.mantissa with zero | positive
  · rw [valueOf_magnitudeDigits_eq_zero_iff.2 zero] at value
    obtain rfl : n = 0 := by exact_mod_cast value.symm
    rcases eq_zero_of_mantissa exact zero with rfl | rfl <;> rfl
  · -- The digits stand for a point in the interval of the number, and for the integer.
    have surrounds := surrounds_magnitudeDigits positive
    have above : 0 < n := by exact_mod_cast value ▸ surrounds.pos positive
    rw [value] at surrounds
    have surroundsToo := @Exact.surrounds_magnitude (.ofInteger false n)
      (by simp only [Exact.ofInteger]; positivity)
    rw [magnitude_ofInteger above small] at surroundsToo
    have converted := exact_ofNat above small
    have sign : e.negative = (Exact.ofInteger false n).negative :=
      Bool.eq_false_iff.2 fun negative => positive.ne' (notBelow negative)
    rw [eq_of_surrounds exact converted sign surrounds surroundsToo]
    exact beq_self_of_ofFloat? converted

/-- The text of a number says a place exactly if the number is this place. -/
theorem readIndex?_display_eq_some_iff
    (small : n < 2 ^ 53) :
    readIndex? (display x).toList = some n ↔ (x == Float.ofNat n) = true := by
  refine ⟨fun read => beq_ofNat_of_readIndex?_display read small, fun integer => ?_⟩
  obtain ⟨digits, text, nonempty, each, value⟩ := digits_display_ofNat small
  have size : n < UInt64.size := Nat.lt_trans small (by decide)
  rw [display_eq_of_beq integer, text, readIndex?_of_digits nonempty each, ofDigits64?_eq each,
    value, if_pos size]

/-- The text of a number that points at a place says this place if the number is an integer, and
no place otherwise. -/
theorem readIndex?_display
    (found : index? x = some n)
    (small : n < 2 ^ 53) :
    readIndex? (display x).toList = if x == Float.ofNat n then some n else none := by
  obtain ⟨e, exact, rfl, notBelow⟩ := exact_of_index? found
  by_cases integer : (x == Float.ofNat e.wholePart) = true
  · rw [if_pos integer, (readIndex?_display_eq_some_iff small).2 integer]
  · rw [if_neg integer]
    have fraction : e.isWhole = false :=
      Bool.eq_false_iff.2 fun whole =>
        integer (beq_ofNat_of_isWhole exact notBelow whole small)
    exact readIndex?_of_not_isCount (not_isCount_of_point (point_mem_display exact fraction))

theorem readIndex?_toString
    (small : n < UInt64.size) :
    readIndex? (toString n).toList = some n := by
  have text : (toString n).toList = Nat.toDigits 10 n := by simp [toString, Nat.repr]
  rw [text, readIndex?_of_digits Nat.toDigits_ne_nil (isDigit_toDigits n),
    ofDigits64?_eq (isDigit_toDigits n), ofDigits_toDigits, if_pos small]

/-- A text of digits that is read as a number which points at a place says this place. -/
theorem readIndex?_of_isCount
    (count : IsCount text)
    (read : read? text = some x)
    (found : index? x = some n)
    (small : n < 2 ^ 53) :
    readIndex? text = some n := by
  obtain ⟨digits, signed, nonempty, each⟩ := count
  have value : ofDigits digits = n := by
    have decimal : x = ofDecimal (digits.dropWhile (· == '0')) 0 := by
      rcases signed with rfl | rfl
      · exact Option.some.inj (read.symm.trans (read?_of_digits nonempty each))
      · rw [read?_plus each] at read
        exact Option.some.inj (read.symm.trans (read?_of_digits nonempty each))
    rw [decimal] at found
    exact ofDigits_eq_of_index? found small
  have size : n < UInt64.size := Nat.lt_trans small (by decide)
  have place : ofDigits64? digits = some n := by
    rw [ofDigits64?_eq each, value, if_pos size]
  rcases signed with rfl | rfl
  · exact (readIndex?_of_digits nonempty each).trans place
  · exact (readIndex?_plus nonempty each).trans place

end Places

/-! ## The integer part of a number -/

section Truncation

variable {x : Float} {e : Exact} {n : Nat}

/-- A number is finite and not below zero, and its integer part is this one. -/
def TruncatesTo (x : Float) (n : Nat) : Prop :=
  x.isFinite = true ∧ ¬ x < 0.0 ∧
    ∃ e, Exact.ofFloat? x = some e ∧ (n : ℚ) ≤ e.magnitude ∧ e.magnitude < n + 1

theorem isFinite_of_ofFloat?
    (exact : Exact.ofFloat? x = some e) :
    x.isFinite = true := by
  rw [ofFloat?_eq_ofUnpacked?] at exact
  change x.toModel.unpack.isFinite = true
  cases parts : x.toModel.unpack with
  | notANumber | infinity =>
    rw [parts] at exact
    cases exact
  | _ => rfl

/-- The integer part is the greatest integer that is not above the magnitude. -/
theorem wholePart_eq_iff :
    e.wholePart = n ↔ (n : ℚ) ≤ e.magnitude ∧ e.magnitude < n + 1 := by
  by_cases integral : 0 ≤ e.exponent
  · have whole : e.magnitude = e.wholePart :=
      magnitude_of_isWhole (by simp [Exact.isWhole, integral])
    rw [whole]
    norm_cast
    omega
  · have unit : (0 : ℚ) < ((2 ^ (-e.exponent).toNat : Nat) : ℚ) := by positivity
    have scaled : e.magnitude = e.mantissa / ((2 ^ (-e.exponent).toNat : Nat) : ℚ) := by
      have power := zpow_mul_pow_toNat 2 (by norm_num) e.exponent
      have below : e.exponent.toNat = 0 := by omega
      rw [below, pow_zero] at power
      rw [Exact.magnitude, eq_div_iff unit.ne', mul_assoc]
      push_cast
      rw [power, mul_one]
    rw [scaled, le_div_iff₀ unit, div_lt_iff₀ unit, Exact.wholePart, if_neg integral,
      Nat.shiftRight_eq_div_pow, Nat.div_eq_iff (Nat.two_pow_pos _)]
    norm_cast
    have positive := Nat.two_pow_pos (-e.exponent).toNat
    rw [Nat.succ_mul]
    omega

theorem index?_eq_some_iff :
    index? x = some n ↔ TruncatesTo x n := by
  unfold index? TruncatesTo
  constructor
  · intro found
    split at found
    · cases found
    · rename_i notBelow
      obtain ⟨e, exact, whole⟩ := Option.map_eq_some_iff.1 found
      exact ⟨isFinite_of_ofFloat? exact, notBelow, e, exact, wholePart_eq_iff.1 whole⟩
  · rintro ⟨-, notBelow, e, exact, whole⟩
    rw [if_neg notBelow, exact, Option.map_some, wholePart_eq_iff.2 whole]

end Truncation
end Number
end TinyScript
