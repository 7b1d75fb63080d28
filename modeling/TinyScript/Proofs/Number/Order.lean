import TinyScript.Proofs.Number.Indices

/-!
# The order of numbers

A finite number has a rational value, and two finite numbers are in the order of
their values (`le_iff_of_exact`).  An integer of at most 53 bits is converted to
the number with this value, and one is added to it without rounding
(`Denotes.add_one`).
-/

namespace TinyScript
namespace Number

open Float.Model
open Float.Model.UnpackedFloat

/-- The value of a finite number, with its sign. -/
def Exact.value (e : Exact) : ℚ :=
  if e.negative then -e.magnitude else e.magnitude

/-- A number is finite and has this value. -/
def Denotes (x : Float) (q : ℚ) : Prop :=
  ∃ e, Exact.ofFloat? x = some e ∧ e.value = q

namespace Exact

variable {a b : Exact}

theorem magnitude_nonneg
    (e : Exact) :
    0 ≤ e.magnitude :=
  mul_nonneg (Nat.cast_nonneg _) (zpow_nonneg (by norm_num) _)

theorem magnitude_pos
    {e : Exact}
    (positive : 0 < e.mantissa) :
    0 < e.magnitude :=
  mul_pos (Nat.cast_pos.2 positive) (zpow_pos (by norm_num) _)

/-- Of two numbers the one with the greater exponent is greater, and with equal exponents the one
with the greater mantissa. -/
theorem Canonical.magnitude_lt
    (first : a.Canonical)
    (second : b.Canonical)
    (before : a.exponent < b.exponent ∨ a.exponent = b.exponent ∧ a.mantissa < b.mantissa) :
    a.magnitude < b.magnitude := by
  have lowest := first.lowest
  have full := second.full
  have positive : 0 < b.mantissa := by omega
  have ends : (4 * a.mantissa : Nat) < a.highEnd := by
    unfold highEnd
    omega
  rw [magnitude_eq_quarters, magnitude_eq_quarters]
  calc
    ((4 * a.mantissa : Nat) : ℚ) * a.quarter < a.highEnd * a.quarter :=
      mul_lt_mul_of_pos_right (by exact_mod_cast ends) a.quarter_pos
    _ ≤ b.lowEnd * b.quarter := first.highEnd_mul_quarter_le second before
    _ < (4 * b.mantissa : Nat) * b.quarter :=
      mul_lt_mul_of_pos_right (by exact_mod_cast lowEnd_lt positive) b.quarter_pos

theorem Canonical.compare_parts
    (first : a.Canonical)
    (second : b.Canonical) :
    (compare a.exponent b.exponent).then (compare a.mantissa b.mantissa) =
      compare a.magnitude b.magnitude := by
  rcases lt_trichotomy a.exponent b.exponent with lower | level | higher
  · rw [compare_lt_iff_lt.2 lower, compare_lt_iff_lt.2 (first.magnitude_lt second (.inl lower))]
    rfl
  · rw [compare_eq_iff_eq.2 level, Ordering.eq_then]
    rcases lt_trichotomy a.mantissa b.mantissa with less | same | more
    · rw [compare_lt_iff_lt.2 less,
        compare_lt_iff_lt.2 (first.magnitude_lt second (.inr ⟨level, less⟩))]
    · have equal : a.magnitude = b.magnitude := by rw [magnitude, magnitude, level, same]
      rw [compare_eq_iff_eq.2 same, compare_eq_iff_eq.2 equal]
    · rw [compare_gt_iff_gt.2 more,
        compare_gt_iff_gt.2 (second.magnitude_lt first (.inr ⟨level.symm, more⟩))]
  · rw [compare_gt_iff_gt.2 higher, compare_gt_iff_gt.2 (second.magnitude_lt first (.inl higher))]
    rfl

theorem compare_neg_neg
    (p q : ℚ) :
    compare (-p) (-q) = (compare p q).swap := by
  rcases lt_trichotomy p q with less | rfl | more
  · rw [compare_lt_iff_lt.2 less, compare_gt_iff_gt.2 (neg_lt_neg less)]
    rfl
  · rw [compare_eq_iff_eq.2 rfl, compare_eq_iff_eq.2 rfl]
    rfl
  · rw [compare_gt_iff_gt.2 more, compare_lt_iff_lt.2 (neg_lt_neg more)]
    rfl

end Exact

/-- Zeros have no sign in their value. -/
theorem Exact.value_of_mantissa
    {e : Exact}
    (zero : e.mantissa = 0) :
    e.value = 0 := by
  simp [value, magnitude, zero]

section Order

variable {x y : Float} {a b : Exact}

/-- Finite numbers are compared as their values. -/
theorem compare_of_exact
    (first : Exact.ofFloat? x = some a)
    (second : Exact.ofFloat? y = some b) :
    x.toModel.unpack.compare y.toModel.unpack = some (compare a.value b.value) := by
  have parts := (canonical_of_ofFloat? first).compare_parts (canonical_of_ofFloat? second)
  rw [ofFloat?_eq_ofUnpacked?] at first second
  generalize x.toModel.unpack = u at *
  generalize y.toModel.unpack = v at *
  cases u with
  | notANumber | infinity => cases first
  | zero sign =>
    cases first
    rw [Exact.value_of_mantissa rfl]
    cases v with
    | notANumber | infinity => cases second
    | zero sign =>
      cases second
      rw [Exact.value_of_mantissa rfl, compare_eq_iff_eq.2 rfl]
      rfl
    | finite sign mantissa exponent positive =>
      cases second
      have above := Exact.magnitude_pos (e := ⟨sign == .negative, mantissa, exponent⟩) positive
      cases sign with
      | positive => exact congrArg some (compare_lt_iff_lt.2 above).symm
      | negative => exact congrArg some (compare_gt_iff_gt.2 (neg_neg_of_pos above)).symm
  | finite sign mantissa exponent positive =>
    cases first
    have above := Exact.magnitude_pos (e := ⟨sign == .negative, mantissa, exponent⟩) positive
    cases v with
    | notANumber | infinity => cases second
    | zero sign' =>
      cases second
      rw [Exact.value_of_mantissa (e := ⟨sign' == .negative, 0, -1074⟩) rfl]
      cases sign with
      | positive => exact congrArg some (compare_gt_iff_gt.2 above).symm
      | negative => exact congrArg some (compare_lt_iff_lt.2 (neg_neg_of_pos above)).symm
    | finite sign' mantissa' exponent' positive' =>
      cases second
      have above' :=
        Exact.magnitude_pos (e := ⟨sign' == .negative, mantissa', exponent'⟩) positive'
      cases sign with
      | positive =>
        cases sign' with
        | positive => exact congrArg some parts
        | negative =>
          exact congrArg some (compare_gt_iff_gt.2 ((neg_neg_of_pos above').trans above)).symm
      | negative =>
        cases sign' with
        | positive =>
          exact congrArg some (compare_lt_iff_lt.2 ((neg_neg_of_pos above).trans above')).symm
        | negative =>
          exact congrArg some
            ((congrArg Ordering.swap parts).trans (Exact.compare_neg_neg _ _).symm)

theorem le_iff_of_exact
    (first : Exact.ofFloat? x = some a)
    (second : Exact.ofFloat? y = some b) :
    x ≤ y ↔ a.value ≤ b.value := by
  change decide (x.toModel ≤ y.toModel) = true ↔ _
  rw [decide_eq_true_iff]
  change Option.any (·.isLE) (x.toModel.unpack.compare y.toModel.unpack) = true ↔ _
  rw [compare_of_exact first second, Option.any_some, Ordering.isLE_iff_ne_gt]
  exact compare_le_iff_le

theorem lt_iff_of_exact
    (first : Exact.ofFloat? x = some a)
    (second : Exact.ofFloat? y = some b) :
    x < y ↔ a.value < b.value := by
  change decide (x.toModel < y.toModel) = true ↔ _
  rw [decide_eq_true_iff]
  change (x.toModel.unpack.compare y.toModel.unpack == some .lt) = true ↔ _
  rw [compare_of_exact first second, beq_iff_eq, Option.some_inj, compare_lt_iff_lt]

end Order

/-! ## Values -/

namespace Denotes

variable {x y : Float} {p q : ℚ}

theorem le_iff
    (first : Denotes x p)
    (second : Denotes y q) :
    x ≤ y ↔ p ≤ q := by
  obtain ⟨a, exactA, rfl⟩ := first
  obtain ⟨b, exactB, rfl⟩ := second
  exact le_iff_of_exact exactA exactB

theorem unique
    (first : Denotes x p)
    (second : Denotes x q) :
    p = q := by
  obtain ⟨a, exactA, rfl⟩ := first
  obtain ⟨b, exactB, rfl⟩ := second
  rw [exactA] at exactB
  rw [Option.some.inj exactB]

theorem zero : Denotes 0.0 0 :=
  ⟨{ negative := false, mantissa := 0, exponent := -1074 }, rfl, Exact.value_of_mantissa rfl⟩

/-- A number points at the integer part of its value. -/
theorem index?_of_nonneg
    (denotes : Denotes x q)
    (notBelow : 0 ≤ q) :
    index? x = some ⌊q⌋₊ := by
  have above : ¬ x < 0.0 := by
    obtain ⟨e, exact, rfl⟩ := denotes
    obtain ⟨z, exactZero, value⟩ := zero
    rw [lt_iff_of_exact exact exactZero, value]
    exact not_lt.2 notBelow
  obtain ⟨e, exact, rfl⟩ := denotes
  have magnitude : e.value = e.magnitude := by
    unfold Exact.value at notBelow ⊢
    split
    · rename_i negative
      rw [if_pos negative] at notBelow
      linarith [e.magnitude_nonneg]
    · rfl
  rw [index?, if_neg above, exact, Option.map_some, magnitude]
  exact congrArg some (wholePart_eq_iff.2
    ⟨Nat.floor_le e.magnitude_nonneg, Nat.lt_floor_add_one e.magnitude⟩)

/-- A number below zero points at nothing. -/
theorem index?_of_neg
    (denotes : Denotes x q)
    (below : q < 0) :
    index? x = none := by
  obtain ⟨e, exact, rfl⟩ := denotes
  obtain ⟨z, exactZero, value⟩ := zero
  rw [index?, if_pos ((lt_iff_of_exact exact exactZero).2 (value.symm ▸ below))]

end Denotes

theorem exists_denotes_iff_isFinite
    {x : Float} :
    (∃ q, Denotes x q) ↔ x.isFinite = true := by
  constructor
  · rintro ⟨-, e, exact, -⟩
    exact isFinite_of_ofFloat? exact
  · intro finite
    cases exact : Exact.ofFloat? x with
    | some e => exact ⟨e.value, e, exact, rfl⟩
    | none =>
      change x.toModel.unpack.isFinite = true at finite
      rw [ofFloat?_eq_ofUnpacked?] at exact
      cases parts : x.toModel.unpack with
      | notANumber | infinity =>
        rw [parts] at finite
        cases finite
      | zero | finite =>
        rw [parts] at exact
        cases exact

/-- A number that is not finite points at nothing. -/
theorem index?_of_not_finite
    {x : Float}
    (notFinite : x.isFinite = false) :
    index? x = none := by
  cases exact : Exact.ofFloat? x with
  | some e =>
    rw [isFinite_of_ofFloat? exact] at notFinite
    cases notFinite
  | none =>
    unfold index?
    split
    · rfl
    · rw [exact, Option.map_none]

/-- What points at a place has a value that is not below zero. -/
theorem exists_denotes_of_index?
    {x : Float}
    {n : Nat}
    (found : index? x = some n) :
    ∃ q, Denotes x q ∧ 0 ≤ q := by
  cases finite : x.isFinite with
  | false =>
    rw [index?_of_not_finite finite] at found
    cases found
  | true =>
    obtain ⟨q, denotes⟩ := exists_denotes_iff_isFinite.2 finite
    refine ⟨q, denotes, ?_⟩
    by_contra below
    rw [denotes.index?_of_neg (not_le.1 below)] at found
    cases found

/-! ## Integers -/

section Integers

variable {n : Nat} {x : Float}

theorem value_ofInteger
    (positive : 0 < n)
    (small : n < 2 ^ 53) :
    (Exact.ofInteger false n).value = n :=
  magnitude_ofInteger positive small

theorem denotes_ofNat
    (small : n < 2 ^ 53) :
    Denotes (Float.ofNat n) n := by
  rcases Nat.eq_zero_or_pos n with rfl | positive
  · exact_mod_cast Denotes.zero
  · exact ⟨_, exact_ofNat positive small, value_ofInteger positive small⟩

/-- An integer of 53 bits at most is the value of one number only, but for the sign of zero. -/
theorem Denotes.eq_ofNat
    (denotes : Denotes x n)
    (small : n < 2 ^ 53) :
    x = Float.ofNat n ∨ n = 0 ∧ x = -0 := by
  obtain ⟨e, exact, value⟩ := denotes
  rcases Nat.eq_zero_or_pos n with rfl | positive
  · have none : e.mantissa = 0 := by
      by_contra some
      have above := Exact.magnitude_pos (Nat.pos_of_ne_zero some)
      unfold Exact.value at value
      split at value <;> push_cast at value <;> linarith
    exact (eq_zero_of_mantissa exact none).imp id fun negative => ⟨rfl, negative⟩
  · have above : (0 : ℚ) < n := Nat.cast_pos.2 positive
    have sign : e.negative = (Exact.ofInteger false n).negative := by
      refine Bool.eq_false_iff.2 fun negative => ?_
      rw [Exact.value, if_pos negative] at value
      linarith [e.magnitude_nonneg]
    have magnitude : e.magnitude = n := by
      rwa [Exact.value, if_neg (Bool.eq_false_iff.1 sign)] at value
    have some : 0 < e.mantissa := by
      refine Nat.pos_of_ne_zero fun none => ?_
      rw [Exact.magnitude, none, Nat.cast_zero, zero_mul] at magnitude
      linarith
    have surrounds := Exact.surrounds_magnitude some
    have surroundsToo := @Exact.surrounds_magnitude (.ofInteger false n)
      (by simp only [Exact.ofInteger]; positivity)
    rw [magnitude] at surrounds
    rw [magnitude_ofInteger positive small] at surroundsToo
    exact .inl (eq_of_surrounds exact (exact_ofNat positive small) sign surrounds surroundsToo)

/-- An integer of 53 bits at most that is given in fine units is brought to 53 bits. -/
theorem normalize_units
    {places : Nat}
    (positive : 0 < n)
    (small : n < 2 ^ 53)
    (fine : 52 ≤ places) :
    normalize Format.binary64 (n * 2 ^ places : Nat) (-places) .positive =
      .finite .positive (n * 2 ^ (52 - n.log2)) (n.log2 - 52) (by positivity) := by
  have length := log2_le_of_lt positive small
  have above : 0 < n * 2 ^ places := by positivity
  have order : compare ((n * 2 ^ places : Nat) : Int) 0 = .gt :=
    compare_gt_iff_gt.2 (by exact_mod_cast above)
  have target :
      Format.binary64.targetExponent (totalExponent (n * 2 ^ places) (-places)) =
        n.log2 - 52 := by
    simp only [Format.targetExponent, Format.minExponent, Format.mantissaBits, totalExponent,
      log2_mul_two_pow positive.ne']
    simp
    omega
  have shift : (-(places : Int) - ((n.log2 : Int) - 52)).toNat = 0 := by omega
  have split : n * 2 ^ places = n * 2 ^ (52 - n.log2) * 2 ^ (places + n.log2 - 52) := by
    rw [Nat.mul_assoc, ← Nat.pow_add]
    congr 2
    omega
  have exponent : -(places : Int) + (places + n.log2 - 52 : Nat) = n.log2 - 52 := by omega
  have rounded := roundWithAccuracy_exact .positive (-places) (places + n.log2 - 52)
    (log2_shifted positive small) (by omega) (by positivity)
  simp only [exponent, ← split] at rounded
  simp only [Float.Model.UnpackedFloat.normalize, order, Int.toNat_natCast, UnpackedFloat.round,
    target, decreaseExponent, shift, Nat.shiftLeft_zero, Nat.cast_zero, sub_zero]
  exact rounded

/-- One is added to an integer of 53 bits at most without rounding. -/
theorem exact_add_one
    (positive : 0 < n)
    (small : n + 1 < 2 ^ 53) :
    Exact.ofFloat? (Float.ofNat n + 1.0) = some (.ofInteger false (n + 1)) := by
  have length := log2_le_of_lt positive (by omega)
  -- The power is kept apart from its value, which is too great to count to.
  obtain ⟨places, same, one⟩ :
      ∃ places : Nat, places = 52 ∧
        (1.0 : Float).toModel.unpack =
          .finite .positive (2 ^ places) (-places) (Nat.two_pow_pos places) :=
    ⟨52, rfl, rfl⟩
  have least : min ((n.log2 : Int) - 52) (-places) = -places := by omega
  have shift : ((n.log2 : Int) - 52 - -places).toNat = n.log2 := by omega
  have noShift : (-(places : Int) - -places).toNat = 0 := by omega
  have whole : n * 2 ^ (52 - n.log2) * 2 ^ n.log2 = n * 2 ^ places := by
    rw [Nat.mul_assoc, ← Nat.pow_add]
    congr 2
    omega
  have sum :
      Sign.positive.apply (n * 2 ^ places : Nat) + Sign.positive.apply (2 ^ places : Nat) =
        ((n + 1) * 2 ^ places : Nat) := by
    simp only [Sign.apply]
    push_cast
    ring
  rw [ofFloat?_eq_ofUnpacked?]
  change Exact.ofUnpacked? (Float.Model.pack (UnpackedFloat.add Format.binary64
    (Float.ofNat n).toModel.unpack (1.0 : Float).toModel.unpack)).unpack = _
  rw [unpack_ofNat positive (by omega), one]
  simp only [UnpackedFloat.add, least, decreaseExponent, shift, noShift, Nat.shiftLeft_eq, whole,
    Nat.pow_zero, Nat.mul_one, sum, normalize_units n.succ_pos small same.ge]
  have room := log2_le_of_lt n.succ_pos small
  rw [unpack_pack_finite (log2_shifted n.succ_pos small) (by omega) (by omega)]
  rfl

/-- The number behind an integer of 53 bits at most is the next integer. -/
theorem Denotes.add_one
    (denotes : Denotes x n)
    (small : n + 1 < 2 ^ 53) :
    Denotes (x + 1.0) (n + 1 : Nat) := by
  rcases Nat.eq_zero_or_pos n with rfl | positive
  · have one : Denotes 1.0 1 := by exact_mod_cast denotes_ofNat (n := 1) (by decide)
    have same : x + 1.0 = 1.0 := by
      rcases denotes.eq_ofNat (by decide) with rfl | ⟨-, rfl⟩ <;> rfl
    simpa [same] using one
  · rcases denotes.eq_ofNat (by omega) with rfl | ⟨rfl, -⟩
    · exact ⟨_, exact_add_one positive small, value_ofInteger n.succ_pos small⟩
    · exact absurd rfl positive.ne'

end Integers

end Number
end TinyScript
