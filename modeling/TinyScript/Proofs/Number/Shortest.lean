import TinyScript.Number.Text
import TinyScript.Proofs.Number.Intervals

/-!
# What the shortest decimal is

The shortest decimal of a number lies in the interval of the number (`surrounds_shortest`).  It is
an integer if and only if the number is one, as far as all digits of integers are kept
(`shortest_of_whole`, `exponent_shortest_neg`).
-/

namespace TinyScript
namespace Number

/-- The real that a decimal is. -/
def Decimal.value (decimal : Decimal) : ℚ :=
  decimal.digits * 10 ^ decimal.exponent

variable {e : Exact} {place : Int}

/-! ## Grids -/

theorem zpow_mul_pow_toNat
    (base : ℚ)
    (nonzero : base ≠ 0)
    (power : Int) :
    base ^ power * base ^ (-power).toNat = base ^ power.toNat := by
  rw [← zpow_natCast, ← zpow_natCast, ← zpow_add₀ nonzero]
  congr 1
  omega

namespace Grid

/-- What the ends of the interval and the step of a grid are multiplied by to become integers. -/
def measure (e : Exact) (place : Int) : ℚ :=
  10 ^ (-place).toNat * 2 ^ (2 - e.exponent).toNat

theorem measure_pos
    (e : Exact)
    (place : Int) :
    0 < measure e place := by
  unfold measure
  positivity

/-- A length in quarters of the last place, in the unit of a grid. -/
theorem quarters_mul_measure
    (quarters : Nat) :
    quarters * e.quarter * measure e place =
      (quarters * (Nat.pow 10 (-place).toNat <<< (e.exponent - 2).toNat) : Nat) := by
  have power := zpow_mul_pow_toNat 2 (by norm_num) (e.exponent - 2)
  rw [Int.neg_sub] at power
  rw [measure, Exact.quarter, Nat.shiftLeft_eq]
  push_cast
  rw [← power]
  simp only [Nat.pow_eq]
  push_cast
  ring

theorem point_mul_measure
    (multiple : Nat) :
    multiple * 10 ^ place * measure e place = (multiple * (of e place).point : Nat) := by
  have power := zpow_mul_pow_toNat 10 (by norm_num) place
  have point : (of e place).point = 10 ^ place.toNat * 2 ^ (2 - e.exponent).toNat :=
    Nat.shiftLeft_eq _ _
  rw [measure, point]
  push_cast
  rw [← power]
  ring

/-- A grid holds the points that lie in the interval of the number. -/
theorem holds_iff
    (multiple : Nat) :
    (of e place).holds multiple = true ↔ e.Surrounds (multiple * 10 ^ place) := by
  let scale := Nat.pow 10 (-place).toNat <<< (e.exponent - 2).toNat
  have positive := measure_pos e place
  have le_point : ∀ quarters : Nat, (quarters : ℚ) * e.quarter ≤ multiple * 10 ^ place ↔
      quarters * scale ≤ multiple * (of e place).point := fun quarters => by
    rw [← mul_le_mul_iff_left₀ positive, quarters_mul_measure, point_mul_measure, Nat.cast_le]
  have point_le : ∀ quarters : Nat, (multiple : ℚ) * 10 ^ place ≤ quarters * e.quarter ↔
      multiple * (of e place).point ≤ quarters * scale := fun quarters => by
    rw [← mul_le_mul_iff_left₀ positive, quarters_mul_measure, point_mul_measure, Nat.cast_le]
  have low : (of e place).low = e.lowEnd * scale := rfl
  have high : (of e place).high = e.highEnd * scale := rfl
  have closed : (of e place).closed = (e.mantissa % 2 == 0) := rfl
  unfold holds Exact.Surrounds
  simp only [closed, low, high, beq_iff_eq, le_point, point_le, ← not_le]
  split <;> simp

theorem holds_of_nearest?
    {grid : Grid}
    {multiple : Nat}
    (nearest : grid.nearest? = some multiple) :
    grid.holds multiple = true := by
  simp only [nearest?] at nearest
  split at nearest
  · rename_i below above
    cases nearest
    split
    · exact below
    · exact above
  · cases nearest
    assumption
  · cases nearest
    assumption
  · cases nearest

theorem isSome_nearest?_of_holds
    {grid : Grid}
    (below : grid.holds (grid.value / grid.point) = true) :
    grid.nearest?.isSome := by
  simp only [nearest?, below]
  split <;> first | rfl | simp_all

end Grid

/-! ## The coarsest grid -/

theorem surrounds_coarsest?
    {count : Nat}
    {decimal : Decimal}
    (found : coarsest? e place count = some decimal) :
    e.Surrounds decimal.value := by
  induction count generalizing place with
  | zero => cases found
  | succ count ih =>
    rw [coarsest?] at found
    split at found
    · rename_i digits nearest
      cases found
      exact (Grid.holds_iff digits).1 (Grid.holds_of_nearest? nearest)
    · exact ih found

/-- No grid is tried after one that has a point in the interval. -/
theorem exists_coarsest?
    (place : Int)
    (count : Nat)
    (reaches : place < count)
    (atUnits : (Grid.of e 0).nearest?.isSome)
    (begins : 0 ≤ place) :
    ∃ decimal, coarsest? e place count = some decimal ∧ 0 ≤ decimal.exponent := by
  induction count generalizing place with
  | zero => omega
  | succ count ih =>
    rw [coarsest?]
    split
    · exact ⟨_, rfl, begins⟩
    · rename_i none_
      have notUnits : place ≠ 0 := by
        rintro rfl
        simp [none_] at atUnits
      exact ih (place - 1) (by omega) (by omega)

theorem exactDecimal_value
    (e : Exact) :
    (exactDecimal e).value = e.magnitude := by
  unfold exactDecimal Decimal.value Exact.magnitude
  split
  · rename_i whole
    obtain ⟨power, same⟩ := Int.eq_ofNat_of_zero_le whole
    simp [same, Nat.shiftLeft_eq]
  · rename_i below
    obtain ⟨power, same⟩ : ∃ power : Nat, e.exponent = -(power : Int) :=
      ⟨(-e.exponent).toNat, by omega⟩
    have tenths : (10 : ℚ) ^ (-(power : Int)) * 5 ^ power = 2 ^ (-(power : Int)) := by
      rw [zpow_neg, zpow_neg, zpow_natCast, zpow_natCast, show (10 : ℚ) = 2 * 5 by norm_num,
        mul_pow]
      field_simp
    simp only [same, neg_neg, Int.toNat_natCast, Nat.pow_eq]
    push_cast
    rw [← tenths]
    ring

/-- The shortest decimal of a number lies in its interval. -/
theorem surrounds_shortest
    (positive : 0 < e.mantissa) :
    e.Surrounds (shortest e).value := by
  unfold shortest
  cases found : coarsest? e (placeAbove e) 24 with
  | none =>
    rw [Option.getD_none, exactDecimal_value]
    exact Exact.surrounds_magnitude positive
  | some decimal => exact surrounds_coarsest? found

/-! ## Integers -/

/-- The last place of a number is no more than one, so the only integer in its interval can be the
number itself. -/
theorem mantissa_of_surrounds
    (positive : 0 < e.mantissa)
    (fine : e.exponent ≤ 0)
    {integer : Nat}
    (surrounds : e.Surrounds integer) :
    integer * 2 ^ (-e.exponent).toNat = e.mantissa := by
  obtain ⟨above, below⟩ := surrounds.bounds
  have inQuarters : (integer : ℚ) =
      (4 * (integer * 2 ^ (-e.exponent).toNat) : Nat) * e.quarter := by
    obtain ⟨places, same⟩ : ∃ places : Nat, e.exponent = -(places : Int) :=
      ⟨(-e.exponent).toNat, by omega⟩
    have unit : (2 : ℚ) ^ (-(places : Int)) * 2 ^ places = 1 := by
      rw [zpow_neg, zpow_natCast]
      exact inv_mul_cancel₀ (by positivity)
    rw [Exact.quarter, zpow_sub₀ (by norm_num), same]
    simp only [neg_neg, Int.toNat_natCast]
    push_cast
    linear_combination (-(integer : ℚ)) * unit
  rw [inQuarters] at above below
  have low : e.lowEnd ≤ 4 * (integer * 2 ^ (-e.exponent).toNat) := by
    exact_mod_cast le_of_mul_le_mul_right above e.quarter_pos
  have high : 4 * (integer * 2 ^ (-e.exponent).toNat) ≤ e.highEnd := by
    exact_mod_cast le_of_mul_le_mul_right below e.quarter_pos
  unfold Exact.lowEnd at low
  unfold Exact.highEnd at high
  split at low <;> omega

theorem Decimal.value_of_nonneg
    {decimal : Decimal}
    (integral : 0 ≤ decimal.exponent) :
    decimal.value = (decimal.digits * 10 ^ decimal.exponent.toNat : Nat) := by
  obtain ⟨power, same⟩ := Int.eq_ofNat_of_zero_le integral
  simp [Decimal.value, same]

/-- A decimal of a number that has no places behind the point is the number itself. -/
theorem mantissa_of_shortest
    (positive : 0 < e.mantissa)
    (fine : e.exponent ≤ 0)
    (integral : 0 ≤ (shortest e).exponent) :
    (shortest e).digits * 10 ^ (shortest e).exponent.toNat * 2 ^ (-e.exponent).toNat =
      e.mantissa := by
  have surrounds := surrounds_shortest positive
  rw [Decimal.value_of_nonneg integral] at surrounds
  exact mantissa_of_surrounds positive fine surrounds

/-- The decimal of a fraction has places behind the point. -/
theorem exponent_shortest_neg
    (positive : 0 < e.mantissa)
    (fraction : e.isWhole = false) :
    (shortest e).exponent < 0 := by
  simp only [Exact.isWhole, Nat.one_shiftLeft, Bool.or_eq_false_iff, decide_eq_false_iff_not,
    beq_eq_false_iff_ne] at fraction
  refine Int.lt_of_not_ge fun integral => fraction.2 ?_
  rw [← mantissa_of_shortest positive (by omega) integral]
  exact Nat.mul_mod_left _ _

/-- The decimal of an integer of at most 53 bits is the integer. -/
theorem shortest_of_whole
    {n : Nat}
    (nonzero : 0 < n)
    (small : n < 2 ^ 53)
    (fine : e.exponent ≤ 0)
    (whole : e.mantissa = n * 2 ^ (-e.exponent).toNat) :
    0 ≤ (shortest e).exponent ∧
      (shortest e).digits * 10 ^ (shortest e).exponent.toNat = n := by
  have positive : 0 < e.mantissa := by
    rw [whole]
    positivity
  have integral : 0 ≤ (shortest e).exponent := by
    have length : e.exponent + e.mantissa.log2 = n.log2 := by
      rw [whole, log2_mul_two_pow nonzero.ne']
      omega
    have short := log2_le_of_lt nonzero small
    have magnitude : e.magnitude = (n : ℚ) * 10 ^ (0 : Int) := by
      have unit := zpow_mul_pow_toNat 2 (by norm_num) e.exponent
      rw [Int.toNat_of_nonpos fine, pow_zero] at unit
      rw [Exact.magnitude, whole]
      push_cast
      linear_combination (n : ℚ) * unit
    have atUnits : (Grid.of e 0).nearest?.isSome := by
      have quotient : (Grid.of e 0).value / (Grid.of e 0).point = n := by
        have noScale : (e.exponent - 2).toNat = 0 := by omega
        have places : (2 - e.exponent).toNat = (-e.exponent).toNat + 2 := by omega
        have same : 4 * e.mantissa = n * 2 ^ ((-e.exponent).toNat + 2) := by
          rw [whole, Nat.pow_add]
          ring
        simp [Grid.of, noScale, places, same, Nat.shiftLeft_eq]
      apply Grid.isSome_nearest?_of_holds
      rw [quotient, Grid.holds_iff, ← magnitude]
      exact Exact.surrounds_magnitude positive
    obtain ⟨decimal, found, noPlaces⟩ :=
      exists_coarsest? (placeAbove e) 24 (by unfold placeAbove; omega) atUnits
        (by unfold placeAbove; omega)
    rw [shortest, found]
    exact noPlaces
  refine ⟨integral, ?_⟩
  have same := (mantissa_of_shortest positive fine integral).trans whole
  exact Nat.eq_of_mul_eq_mul_right (by positivity) same

end Number
end TinyScript
