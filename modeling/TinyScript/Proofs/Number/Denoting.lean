import TinyScript.Proofs.Number.Integers
import TinyScript.Proofs.Number.Shortest

/-!
# What displayed numbers stand for

The digits that a number is displayed by stand for a point in its interval
(`surrounds_magnitudeDigits`), so two numbers that are displayed alike are equal
(`beq_of_display_eq`).
-/

namespace TinyScript
namespace Number

/-! ## Digits -/

theorem foldl_appendDigit_eq
    (digits : List Char)
    (start : Nat) :
    digits.foldl appendDigit start = start * 10 ^ digits.length + ofDigits digits := by
  unfold ofDigits
  induction digits generalizing start with
  | nil => simp
  | cons digit rest ih =>
    rw [List.foldl_cons, List.foldl_cons, ih, ih (appendDigit 0 digit), List.length_cons,
      Nat.pow_succ]
    simp only [appendDigit]
    ring

theorem ofDigits_append
    (first second : List Char) :
    ofDigits (first ++ second) = ofDigits first * 10 ^ second.length + ofDigits second := by
  rw [ofDigits, List.foldl_append, foldl_appendDigit_eq second]
  rfl

theorem ofDigits_replicate_zero
    (count : Nat) :
    ofDigits (List.replicate count '0') = 0 := by
  induction count with
  | zero => rfl
  | succ count ih => exact ih

/-- The real that digits with at most one point among them stand for. -/
def valueOf (text : List Char) : ℚ :=
  let fraction := (text.dropWhile Char.isDigit).drop 1
  ofDigits (text.takeWhile Char.isDigit ++ fraction) / 10 ^ fraction.length

section Values

variable {digits whole fraction : List Char}

theorem valueOf_of_digits
    (each : ∀ c ∈ digits, c.isDigit = true) :
    valueOf digits = ofDigits digits := by
  have all : digits.takeWhile Char.isDigit = digits := List.takeWhile_eq_self_iff.2 each
  have none : digits.dropWhile Char.isDigit = [] := List.dropWhile_eq_nil_iff.2 each
  simp [valueOf, all, none]

theorem valueOf_point
    (each : ∀ c ∈ whole, c.isDigit = true)
    (fraction : List Char) :
    valueOf (whole ++ '.' :: fraction) = ofDigits (whole ++ fraction) / 10 ^ fraction.length := by
  have before : (whole ++ '.' :: fraction).takeWhile Char.isDigit = whole := by
    rw [List.takeWhile_append_of_pos each, List.takeWhile_cons_of_neg (by decide), List.append_nil]
  have behind : (whole ++ '.' :: fraction).dropWhile Char.isDigit = '.' :: fraction := by
    rw [List.dropWhile_append_of_pos each, List.dropWhile_cons_of_neg (by decide)]
  rw [valueOf, before, behind]
  rfl

end Values

/-! ## Decimals -/

namespace Decimal

variable (decimal : Decimal)

theorem positional_of_nonneg
    (integral : 0 ≤ decimal.exponent) :
    decimal.positional =
      Nat.toDigits 10 decimal.digits ++ List.replicate decimal.exponent.toNat '0' :=
  if_pos integral

/-- Behind a point stand as many digits as a decimal has places. -/
theorem exists_positional_of_neg
    (fraction : decimal.exponent < 0) :
    ∃ whole behind, decimal.positional = whole ++ '.' :: behind ∧ whole ≠ [] ∧
      (∀ c ∈ whole, c.isDigit = true) ∧ (∀ c ∈ behind, c.isDigit = true) ∧
      behind.length = (-decimal.exponent).toNat ∧ ofDigits (whole ++ behind) = decimal.digits := by
  have each := isDigit_toDigits decimal.digits
  have positive : 0 < (-decimal.exponent).toNat := by omega
  unfold positional
  rw [if_neg (by omega)]
  generalize (-decimal.exponent).toNat = places at *
  generalize same : Nat.toDigits 10 decimal.digits = digits at *
  split
  · rename_i inside
    refine ⟨digits.take (digits.length - places), digits.drop (digits.length - places), rfl, ?_,
      fun c mem => each c (List.mem_of_mem_take mem),
      fun c mem => each c (List.mem_of_mem_drop mem), ?_, ?_⟩
    · rw [← List.length_pos_iff]
      simp
      omega
    · simp
      omega
    · rw [List.take_append_drop, ← same, ofDigits_toDigits]
  · refine ⟨['0'], List.replicate (places - digits.length) '0' ++ digits, rfl, by simp, by simp,
      fun c mem => ?_, ?_, ?_⟩
    · rcases List.mem_append.1 mem with zero | digit
      · rw [List.eq_of_mem_replicate zero]
        rfl
      · exact each c digit
    · simp
      omega
    · have zeros : ofDigits (['0'] ++ List.replicate (places - digits.length) '0') = 0 :=
        ofDigits_replicate_zero (places - digits.length + 1)
      rw [← List.append_assoc, ofDigits_append, zeros, Nat.zero_mul, Nat.zero_add, ← same,
        ofDigits_toDigits]

theorem isDigit_positional
    (integral : 0 ≤ decimal.exponent) :
    ∀ c ∈ decimal.positional, c.isDigit = true := by
  rw [decimal.positional_of_nonneg integral]
  intro c mem
  rcases List.mem_append.1 mem with digit | zero
  · exact isDigit_toDigits _ c digit
  · rw [List.eq_of_mem_replicate zero]
    rfl

theorem ofDigits_positional
    (integral : 0 ≤ decimal.exponent) :
    ofDigits decimal.positional = decimal.digits * 10 ^ decimal.exponent.toNat := by
  rw [decimal.positional_of_nonneg integral, ofDigits_append, ofDigits_toDigits,
    ofDigits_replicate_zero, List.length_replicate, Nat.add_zero]

/-- A decimal in positional notation stands for itself. -/
theorem valueOf_positional :
    valueOf decimal.positional = decimal.value := by
  by_cases integral : 0 ≤ decimal.exponent
  · rw [valueOf_of_digits (decimal.isDigit_positional integral),
      decimal.ofDigits_positional integral, value_of_nonneg integral]
  · obtain ⟨whole, behind, text, _, each, _, length, digits⟩ :=
      decimal.exists_positional_of_neg (by omega)
    obtain ⟨places, same⟩ : ∃ places : Nat, decimal.exponent = -(places : Int) :=
      ⟨(-decimal.exponent).toNat, by omega⟩
    rw [text, valueOf_point each, digits, length, value, same, neg_neg, Int.toNat_natCast, zpow_neg,
      zpow_natCast, div_eq_mul_inv]

end Decimal

/-! ## Displayed numbers -/

/-- The digits that the magnitude of a number is displayed by. -/
def magnitudeDigits (e : Exact) : List Char :=
  if e.isWhole && e.wholePart < integerLimit then Nat.toDigits 10 e.wholePart
  else (shortest e).positional

variable {x y : Float} {e : Exact}

theorem magnitude_of_isWhole
    (whole : e.isWhole = true) :
    e.magnitude = e.wholePart := by
  simp only [Exact.isWhole, Nat.one_shiftLeft, Bool.or_eq_true, decide_eq_true_eq, beq_iff_eq]
    at whole
  unfold Exact.wholePart
  split
  · rename_i integral
    obtain ⟨power, same⟩ := Int.eq_ofNat_of_zero_le integral
    simp [Exact.magnitude, same, Nat.shiftLeft_eq]
  · rename_i fraction
    have divides := Nat.div_add_mod e.mantissa (2 ^ (-e.exponent).toNat)
    rw [whole.resolve_left fraction, Nat.add_zero] at divides
    have unit := zpow_mul_pow_toNat 2 (by norm_num) e.exponent
    have below : e.exponent.toNat = 0 := by omega
    rw [below, pow_zero] at unit
    rw [Exact.magnitude, Nat.shiftRight_eq_div_pow]
    conv_lhs => rw [← divides]
    push_cast
    linear_combination ((e.mantissa / 2 ^ (-e.exponent).toNat : Nat) : ℚ) * unit

/-- The integer part of an integer is zero only if the integer is. -/
theorem wholePart_eq_zero_iff
    (whole : e.isWhole = true) :
    e.wholePart = 0 ↔ e.mantissa = 0 := by
  have magnitude := magnitude_of_isWhole whole
  have power : (2 : ℚ) ^ e.exponent ≠ 0 := zpow_ne_zero _ (by norm_num)
  constructor
  · intro zero
    rw [zero, Exact.magnitude] at magnitude
    simpa [power] using magnitude
  · intro zero
    rw [Exact.magnitude, zero] at magnitude
    simpa using magnitude.symm

theorem isWhole_of_mantissa_eq_zero
    (zero : e.mantissa = 0) :
    e.isWhole = true ∧ e.wholePart = 0 := by
  have whole : e.isWhole = true := by simp [Exact.isWhole, zero]
  exact ⟨whole, (wholePart_eq_zero_iff whole).2 zero⟩

/-- A finite number is displayed by the digits of its magnitude, behind a minus sign if it is
below zero. -/
theorem toList_display
    (exact : Exact.ofFloat? x = some e) :
    (display x).toList =
      (if e.negative && e.mantissa != 0 then ['-'] else []) ++ magnitudeDigits e := by
  rw [display, exact]
  simp only [magnitudeDigits]
  split
  · rename_i small
    have whole : e.isWhole = true := by
      rw [Bool.and_eq_true] at small
      exact small.1
    have sign := wholePart_eq_zero_iff whole
    rw [Int.toString_eq_repr, Int.repr_eq_if, Exact.toInt]
    cases negative : e.negative with
    | false => simp
    | true =>
      by_cases zero : e.mantissa = 0
      · simp [zero, sign.2 zero]
      · have positive : e.wholePart ≠ 0 := mt sign.1 zero
        simp [zero, positive]
  · rename_i notSmall
    have nonzero : e.mantissa ≠ 0 := fun zero => notSmall (by
      obtain ⟨whole, none⟩ := isWhole_of_mantissa_eq_zero zero
      rw [whole, none]
      rfl)
    rw [plain, exact]
    simp only [nonzero, if_false, String.toList_ofList]
    cases e.negative <;> simp [nonzero]

/-- The digits of a number stand for a point in its interval. -/
theorem surrounds_magnitudeDigits
    (positive : 0 < e.mantissa) :
    e.Surrounds (valueOf (magnitudeDigits e)) := by
  unfold magnitudeDigits
  split
  · rename_i small
    rw [Bool.and_eq_true] at small
    rw [valueOf_of_digits (isDigit_toDigits _), ofDigits_toDigits, ← magnitude_of_isWhole small.1]
    exact Exact.surrounds_magnitude positive
  · rw [Decimal.valueOf_positional]
    exact surrounds_shortest positive

/-! ## Equal texts -/

theorem exists_cons_of_digits
    {digits : List Char}
    (nonempty : digits ≠ [])
    (each : ∀ c ∈ digits, c.isDigit = true) :
    ∃ first rest, digits = first :: rest ∧ first.isDigit = true ∧
      ∀ c ∈ rest, c.isDigit = true ∨ c = '.' := by
  obtain ⟨first, rest, rfl⟩ := List.exists_cons_of_ne_nil nonempty
  exact ⟨first, rest, rfl, each first List.mem_cons_self,
    fun c mem => .inl (each c (List.mem_cons_of_mem first mem))⟩

/-- A magnitude is displayed by digits and at most a point behind the first of them. -/
theorem exists_cons_magnitudeDigits
    (e : Exact) :
    ∃ first rest, magnitudeDigits e = first :: rest ∧ first.isDigit = true ∧
      ∀ c ∈ rest, c.isDigit = true ∨ c = '.' := by
  unfold magnitudeDigits
  split
  · exact exists_cons_of_digits Nat.toDigits_ne_nil (isDigit_toDigits _)
  · by_cases integral : 0 ≤ (shortest e).exponent
    · refine exists_cons_of_digits ?_ ((shortest e).isDigit_positional integral)
      rw [(shortest e).positional_of_nonneg integral]
      simp
    · obtain ⟨whole, behind, text, nonempty, each, others, -, -⟩ :=
        (shortest e).exists_positional_of_neg (by omega)
      obtain ⟨first, rest, rfl⟩ := List.exists_cons_of_ne_nil nonempty
      refine ⟨first, rest ++ '.' :: behind, text, each first List.mem_cons_self, fun c mem => ?_⟩
      rcases List.mem_append.1 mem with before | after
      · exact .inl (each c (List.mem_cons_of_mem first before))
      · rcases List.mem_cons.1 after with rfl | digit
        · exact .inr rfl
        · exact .inl (others c digit)

/-- A finite number is displayed by a minus sign or none, and digits. -/
theorem exists_display_of_exact
    (exact : Exact.ofFloat? x = some e) :
    ∃ sign first rest, (display x).toList = sign ++ first :: rest ∧ (sign = [] ∨ sign = ['-']) ∧
      first.isDigit = true ∧ ∀ c ∈ rest, c.isDigit = true ∨ c = '.' := by
  obtain ⟨first, rest, digits, digit, each⟩ := exists_cons_magnitudeDigits e
  refine ⟨_, first, rest, by rw [toList_display exact, digits], ?_, digit, each⟩
  split
  · exact .inr rfl
  · exact .inl rfl

theorem display_infinity :
    display infinity = "Infinity" ∧ display (-infinity) = "-Infinity" :=
  ⟨rfl, rfl⟩

/-- A number is finite or one of the two infinities. -/
theorem exact_or_infinity
    (isNumber : x.isNaN = false) :
    (∃ e, Exact.ofFloat? x = some e) ∨ x = infinity ∨ x = -infinity := by
  cases exact : Exact.ofFloat? x with
  | none => exact .inr (eq_infinity_of_ofFloat? exact isNumber)
  | some e => exact .inl ⟨e, rfl⟩

/-- A number is displayed by letters and digits, with a point or a minus sign among them. -/
theorem exists_cons_display
    (isNumber : x.isNaN = false) :
    ∃ first rest, (display x).toList = first :: rest ∧
      (first.isDigit = true ∨ first = '-' ∨ first = 'I') ∧
      ∀ c ∈ rest, c.isAlphanum = true ∨ c = '.' := by
  rcases exact_or_infinity isNumber with ⟨e, exact⟩ | rfl | rfl
  · obtain ⟨sign, first, rest, text, signs, digit, each⟩ := exists_display_of_exact exact
    have others : ∀ c ∈ rest, c.isAlphanum = true ∨ c = '.' :=
      fun c mem => (each c mem).imp_left fun digit => by simp [Char.isAlphanum, digit]
    rcases signs with rfl | rfl
    · exact ⟨first, rest, text, .inl digit, others⟩
    · refine ⟨'-', first :: rest, text, .inr (.inl rfl), fun c mem => ?_⟩
      rcases List.mem_cons.1 mem with rfl | behind
      · exact .inl (by simp [Char.isAlphanum, digit])
      · exact others c behind
  · rw [display_infinity.1]
    exact ⟨'I', "nfinity".toList, rfl, .inr (.inr rfl), by simp⟩
  · rw [display_infinity.2]
    exact ⟨'-', "Infinity".toList, rfl, .inr (.inl rfl), by simp⟩

/-- No finite number is displayed like an infinite one. -/
theorem display_ne_of_exact
    (exact : Exact.ofFloat? x = some e) :
    display x ≠ "Infinity" ∧ display x ≠ "-Infinity" := by
  obtain ⟨sign, first, rest, text, signs, digit, -⟩ := exists_display_of_exact exact
  constructor <;> intro same <;> rw [same] at text <;>
    rcases signs with rfl | rfl <;> cases text <;> cases digit

/-- Numbers that are displayed alike have the same sign, unless they are zero, and the same
digits. -/
theorem parts_eq_of_display_eq
    {a b : Exact}
    (first : Exact.ofFloat? x = some a)
    (second : Exact.ofFloat? y = some b)
    (same : display x = display y) :
    (a.negative && a.mantissa != 0) = (b.negative && b.mantissa != 0) ∧
      magnitudeDigits a = magnitudeDigits b := by
  have texts := congrArg String.toList same
  obtain ⟨c, _, digitsA, digitA, -⟩ := exists_cons_magnitudeDigits a
  obtain ⟨d, _, digitsB, digitB, -⟩ := exists_cons_magnitudeDigits b
  rw [toList_display first, toList_display second, digitsA, digitsB] at texts
  rw [digitsA, digitsB]
  -- A minus sign is no digit.
  split at texts <;> split at texts <;> rename_i signA signB
  · exact ⟨signA.trans signB.symm, (List.cons.inj texts).2⟩
  · cases texts
    cases digitB
  · cases texts
    cases digitA
  · rw [Bool.not_eq_true] at signA signB
    exact ⟨signA.trans signB.symm, texts⟩

/-- The digits of a number stand for zero only if the number is zero. -/
theorem valueOf_magnitudeDigits_eq_zero_iff :
    valueOf (magnitudeDigits e) = 0 ↔ e.mantissa = 0 := by
  constructor
  · intro zero
    by_contra nonzero
    have positive := Nat.pos_of_ne_zero nonzero
    exact ((surrounds_magnitudeDigits positive).pos positive).ne' zero
  · intro zero
    obtain ⟨whole, none⟩ := isWhole_of_mantissa_eq_zero zero
    rw [magnitudeDigits, whole, none, if_pos (by decide), valueOf_of_digits (isDigit_toDigits 0),
      ofDigits_toDigits, Nat.cast_zero]

/-- Two finite numbers that are displayed alike are equal. -/
theorem beq_of_display_eq_of_exact
    {a b : Exact}
    (first : Exact.ofFloat? x = some a)
    (second : Exact.ofFloat? y = some b)
    (same : display x = display y) :
    (x == y) = true := by
  obtain ⟨signs, digits⟩ := parts_eq_of_display_eq first second same
  have zeros : a.mantissa = 0 ↔ b.mantissa = 0 := by
    rw [← valueOf_magnitudeDigits_eq_zero_iff, digits, valueOf_magnitudeDigits_eq_zero_iff]
  by_cases none : a.mantissa = 0
  · rcases eq_zero_of_mantissa first none with rfl | rfl <;>
      rcases eq_zero_of_mantissa second (zeros.1 none) with rfl | rfl <;>
      rfl
  · have positive := Nat.pos_of_ne_zero none
    have inSecond := surrounds_magnitudeDigits (Nat.pos_of_ne_zero (mt zeros.2 none))
    rw [← digits] at inSecond
    have sign : a.negative = b.negative := by
      simpa only [bne_iff_ne.2 none, bne_iff_ne.2 (mt zeros.2 none), Bool.and_true] using signs
    rw [eq_of_surrounds first second sign (surrounds_magnitudeDigits positive) inSecond]
    exact beq_self_of_ofFloat? second

/-- Numbers that are displayed alike are equal. -/
theorem beq_of_display_eq
    (firstIsNumber : x.isNaN = false)
    (secondIsNumber : y.isNaN = false)
    (same : display x = display y) :
    (x == y) = true := by
  rcases exact_or_infinity firstIsNumber with ⟨a, exactA⟩ | infiniteA
  · rcases exact_or_infinity secondIsNumber with ⟨b, exactB⟩ | rfl | rfl
    · exact beq_of_display_eq_of_exact exactA exactB same
    · exact absurd (same.trans display_infinity.1) (display_ne_of_exact exactA).1
    · exact absurd (same.trans display_infinity.2) (display_ne_of_exact exactA).2
  · rcases exact_or_infinity secondIsNumber with ⟨b, exactB⟩ | infiniteB
    · rcases infiniteA with rfl | rfl
      · exact absurd (same.symm.trans display_infinity.1) (display_ne_of_exact exactB).1
      · exact absurd (same.symm.trans display_infinity.2) (display_ne_of_exact exactB).2
    · rcases infiniteA with rfl | rfl <;> rcases infiniteB with rfl | rfl
      · rfl
      · rw [display_infinity.1, display_infinity.2] at same
        exact absurd same (by decide)
      · rw [display_infinity.1, display_infinity.2] at same
        exact absurd same (by decide)
      · rfl

end Number
end TinyScript
