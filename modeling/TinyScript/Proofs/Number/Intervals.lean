import TinyScript.Number.Shortest
import TinyScript.Proofs.Number.Unpacked

/-!
# The intervals of numbers

Each number has exact parts of its own (`eq_of_ofFloat?`), and stands for the interval of reals
that lie nearer to it than to its neighbours.  No two of these intervals meet, so a decimal out of
the interval of a number determines it up to its sign (`eq_of_surrounds`).
-/

namespace TinyScript
namespace Number

open Float.Model

/-! ## Exact parts -/

/-- The parts of a number as they are stored: 53 bits at most, and less only at the end of the
range. -/
structure Exact.Canonical (e : Exact) : Prop where
  below : e.mantissa < 2 ^ 53
  lowest : -1074 ≤ e.exponent
  full : e.exponent = -1074 ∨ 2 ^ 52 ≤ e.mantissa

/-- The bits of a number with given parts. -/
def Exact.bits (e : Exact) : Nat :=
  (if e.negative then 2 ^ 63 else 0) +
    (if e.mantissa < 2 ^ 52 then e.mantissa
      else (e.exponent + 1075).toNat * 2 ^ 52 + (e.mantissa - 2 ^ 52))

section Parts

variable {x y : Float} {e : Exact}

theorem canonical_of_ofFloat?
    (exact : Exact.ofFloat? x = some e) :
    e.Canonical := by
  simp only [Exact.ofFloat?, Exact.hiddenBit, Nat.one_shiftLeft] at exact
  have fraction := Nat.mod_lt x.toBits.toNat (Nat.two_pow_pos 52)
  split at exact
  · cases exact
  · split at exact
    · cases exact
      exact ⟨by simp only; omega, Int.le_refl _, .inl rfl⟩
    · cases exact
      exact ⟨by simp only; omega, by simp only; omega, .inr (by simp only; omega)⟩

theorem toBits_of_ofFloat?
    (exact : Exact.ofFloat? x = some e) :
    x.toBits.toNat = e.bits := by
  simp only [Exact.ofFloat?, Exact.hiddenBit, Nat.one_shiftLeft, Nat.shiftRight_eq_div_pow]
    at exact
  have small : x.toBits.toNat < 2 ^ 64 := x.toBits.toNat_lt
  have parts : x.toBits.toNat = x.toBits.toNat / 2 ^ 63 * 2 ^ 63 +
      (x.toBits.toNat / 2 ^ 52 % 2048 * 2 ^ 52 + x.toBits.toNat % 2 ^ 52) := by omega
  have oneBit : x.toBits.toNat / 2 ^ 63 = 0 ∨ x.toBits.toNat / 2 ^ 63 = 1 := by omega
  have short := Nat.mod_lt x.toBits.toNat (Nat.two_pow_pos 52)
  rw [parts]
  generalize x.toBits.toNat / 2 ^ 63 = sign at *
  generalize x.toBits.toNat / 2 ^ 52 % 2048 = scale at *
  generalize x.toBits.toNat % 2 ^ 52 = fraction at *
  have signed : (if (sign == 1) = true then 2 ^ 63 else 0) = sign * 2 ^ 63 := by
    rcases oneBit with rfl | rfl <;> rfl
  split at exact
  · cases exact
  · split at exact
    · rename_i lowest
      cases exact
      rw [Exact.bits, signed, if_pos short, lowest, Nat.zero_mul, Nat.zero_add]
    · cases exact
      have biased : ((scale : Int) - 1075 + 1075).toNat = scale := by omega
      have high : ¬ 2 ^ 52 + fraction < 2 ^ 52 := by omega
      simp only [Exact.bits, signed, biased, if_neg high, Nat.add_sub_cancel_left]

/-- A number is determined by its exact parts. -/
theorem eq_of_ofFloat?
    (first : Exact.ofFloat? x = some e)
    (second : Exact.ofFloat? y = some e) :
    x = y :=
  Float.toBits_inj.1
    (UInt64.toNat_inj.1 ((toBits_of_ofFloat? first).trans (toBits_of_ofFloat? second).symm))

/-- A number without a mantissa is one of the two zeros. -/
theorem eq_zero_of_mantissa
    (exact : Exact.ofFloat? x = some e)
    (zero : e.mantissa = 0) :
    x = 0 ∨ x = -0 := by
  have lowest : e.exponent = -1074 :=
    (canonical_of_ofFloat? exact).full.resolve_right (by omega)
  obtain ⟨negative, mantissa, exponent⟩ := e
  simp only at zero lowest
  subst zero lowest
  cases negative with
  | false => exact .inl (eq_of_ofFloat? exact rfl)
  | true => exact .inr (eq_of_ofFloat? exact rfl)

/-- A number without exact parts is infinite. -/
theorem eq_infinity_of_ofFloat?
    (inexact : Exact.ofFloat? x = none)
    (isNumber : x.isNaN = false) :
    x = infinity ∨ x = -infinity := by
  have eq_of_unpack : ∀ {y : Float}, x.toModel.unpack = y.toModel.unpack → x = y := fun {y} same =>
    Float.toBits_inj.1 (UInt64.toBitVec_inj.1
      ((UnpackedFloat.unpack_inj_of_valid x.toModel.valid y.toModel.valid).1 same))
  rw [ofFloat?_eq_ofUnpacked?] at inexact
  change x.toModel.unpack.isNaN = false at isNumber
  cases parts : x.toModel.unpack with
  | notANumber =>
    rw [parts] at isNumber
    cases isNumber
  | infinity sign =>
    cases sign with
    | positive => exact .inl (eq_of_unpack (parts.trans rfl))
    | negative => exact .inr (eq_of_unpack (parts.trans rfl))
  | zero sign =>
    rw [parts] at inexact
    cases inexact
  | finite sign mantissa exponent positive =>
    rw [parts] at inexact
    cases inexact

theorem isNaN_of_ofFloat?
    (exact : Exact.ofFloat? x = some e) :
    x.isNaN = false := by
  rw [ofFloat?_eq_ofUnpacked?] at exact
  change x.toModel.unpack.isNaN = false
  cases parts : x.toModel.unpack with
  | notANumber =>
    rw [parts] at exact
    cases exact
  | _ => rfl

/-- A finite number equals itself. -/
theorem beq_self_of_ofFloat?
    (exact : Exact.ofFloat? x = some e) :
    (x == x) = true := by
  have number : x ≠ Float.nan := by
    rintro rfl
    cases exact
  exact Float.beq_iff_ne_nan_and_eq.2 ⟨number, number, .inl rfl⟩

end Parts

/-! ## Intervals -/

namespace Exact

/-- The mantissa is the least of its scale, and the neighbour below is only half as far away. -/
def isNarrow (e : Exact) : Bool :=
  e.mantissa == hiddenBit && e.exponent != -1074

/-- The lower end of the interval of a number, in quarters of its last place. -/
def lowEnd (e : Exact) : Nat :=
  if e.isNarrow then 4 * e.mantissa - 1 else 4 * e.mantissa - 2

/-- The upper end of the interval of a number, in quarters of its last place. -/
def highEnd (e : Exact) : Nat :=
  4 * e.mantissa + 2

/-- A quarter of the last place of a number. -/
def quarter (e : Exact) : ℚ :=
  2 ^ (e.exponent - 2)

/-- The magnitude of a number. -/
def magnitude (e : Exact) : ℚ :=
  e.mantissa * 2 ^ e.exponent

/-- A point lies in the interval of the magnitude of a number.  The two ends belong to the interval
if the mantissa is even. -/
def Surrounds (e : Exact) (point : ℚ) : Prop :=
  if e.mantissa % 2 = 0 then e.lowEnd * e.quarter ≤ point ∧ point ≤ e.highEnd * e.quarter
  else e.lowEnd * e.quarter < point ∧ point < e.highEnd * e.quarter

variable {a b e : Exact} {point : ℚ}

theorem quarter_pos
    (e : Exact) :
    0 < e.quarter :=
  zpow_pos (by norm_num) _

theorem magnitude_eq_quarters
    (e : Exact) :
    e.magnitude = (4 * e.mantissa : Nat) * e.quarter := by
  rw [magnitude, quarter, zpow_sub₀ (by norm_num)]
  push_cast
  ring

theorem lowEnd_lt
    (positive : 0 < e.mantissa) :
    e.lowEnd < 4 * e.mantissa := by
  unfold lowEnd
  split <;> omega

theorem lowEnd_pos
    (positive : 0 < e.mantissa) :
    0 < e.lowEnd := by
  unfold lowEnd
  split <;> omega

namespace Surrounds

theorem bounds
    (surrounds : e.Surrounds point) :
    e.lowEnd * e.quarter ≤ point ∧ point ≤ e.highEnd * e.quarter := by
  unfold Surrounds at surrounds
  split at surrounds
  · exact surrounds
  · exact ⟨surrounds.1.le, surrounds.2.le⟩

theorem bounds_of_odd
    (surrounds : e.Surrounds point)
    (odd : e.mantissa % 2 = 1) :
    e.lowEnd * e.quarter < point ∧ point < e.highEnd * e.quarter := by
  rwa [Surrounds, if_neg (by omega)] at surrounds

theorem of_strict
    (above : e.lowEnd * e.quarter < point)
    (below : point < e.highEnd * e.quarter) :
    e.Surrounds point := by
  unfold Surrounds
  split
  · exact ⟨above.le, below.le⟩
  · exact ⟨above, below⟩

theorem pos
    (surrounds : e.Surrounds point)
    (positive : 0 < e.mantissa) :
    0 < point :=
  lt_of_lt_of_le (mul_pos (by exact_mod_cast lowEnd_pos positive) e.quarter_pos)
    surrounds.bounds.1

end Surrounds

/-- A number lies in its own interval. -/
theorem surrounds_magnitude
    (positive : 0 < e.mantissa) :
    e.Surrounds e.magnitude := by
  rw [magnitude_eq_quarters]
  refine .of_strict ?_ ?_
  · exact mul_lt_mul_of_pos_right (by exact_mod_cast lowEnd_lt positive) e.quarter_pos
  · exact mul_lt_mul_of_pos_right (by exact_mod_cast (by unfold highEnd; omega :
      4 * e.mantissa < e.highEnd)) e.quarter_pos

/-! ## No two intervals meet -/

theorem quarter_eq_mul
    (order : a.exponent ≤ b.exponent) :
    b.quarter = (2 ^ (b.exponent - a.exponent).toNat : Nat) * a.quarter := by
  have split : b.exponent - 2 = (b.exponent - a.exponent).toNat + (a.exponent - 2) := by omega
  rw [quarter, quarter, split, zpow_add₀ (by norm_num), zpow_natCast]
  push_cast
  rfl

/-- The interval of a number ends where that of a greater one begins, or earlier.  Of two neighbours
one has an odd mantissa. -/
theorem Canonical.highEnd_le
    (first : a.Canonical)
    (second : b.Canonical)
    (before : a.exponent < b.exponent ∨ a.exponent = b.exponent ∧ a.mantissa < b.mantissa) :
    a.highEnd ≤ b.lowEnd * 2 ^ (b.exponent - a.exponent).toNat ∧
      (a.highEnd = b.lowEnd * 2 ^ (b.exponent - a.exponent).toNat →
        a.mantissa % 2 = 1 ∨ b.mantissa % 2 = 1) := by
  rcases before with lower | ⟨level, less⟩
  · have higher : b.exponent ≠ -1074 := by
      have := first.lowest
      omega
    have full := second.full.resolve_left higher
    have small := first.below
    obtain ⟨count, more⟩ : ∃ count, (b.exponent - a.exponent).toNat = count + 1 :=
      ⟨(b.exponent - a.exponent).toNat - 1, by omega⟩
    have scaled : b.lowEnd * 2 ≤ b.lowEnd * 2 ^ (b.exponent - a.exponent).toNat := by
      rw [more, Nat.pow_succ']
      exact Nat.mul_le_mul_left _ (Nat.le_mul_of_pos_right 2 (Nat.two_pow_pos count))
    have ends : 2 ^ 55 - 2 ≤ b.lowEnd * 2 := by
      have least : b.mantissa = 2 ^ 52 → b.isNarrow = true := fun least => by
        simp [isNarrow, hiddenBit, least, higher]
      unfold lowEnd
      split
      · omega
      · rename_i notNarrow
        have more : b.mantissa ≠ 2 ^ 52 := fun same => notNarrow (least same)
        omega
    unfold highEnd
    constructor
    · omega
    · intro meets
      omega
  · have ratio : (b.exponent - a.exponent).toNat = 0 := by omega
    rw [ratio, Nat.pow_zero, Nat.mul_one]
    unfold highEnd lowEnd
    split <;> omega

theorem Canonical.highEnd_mul_quarter_le
    (first : a.Canonical)
    (second : b.Canonical)
    (before : a.exponent < b.exponent ∨ a.exponent = b.exponent ∧ a.mantissa < b.mantissa) :
    (a.highEnd : ℚ) * a.quarter ≤ b.lowEnd * b.quarter := by
  have order : a.exponent ≤ b.exponent := by omega
  rw [quarter_eq_mul order, ← mul_assoc]
  exact mul_le_mul_of_nonneg_right (by exact_mod_cast (first.highEnd_le second before).1)
    a.quarter_pos.le

theorem Canonical.not_surrounds
    (first : a.Canonical)
    (second : b.Canonical)
    (before : a.exponent < b.exponent ∨ a.exponent = b.exponent ∧ a.mantissa < b.mantissa)
    (inFirst : a.Surrounds point) :
    ¬ b.Surrounds point := by
  intro inSecond
  have order : a.exponent ≤ b.exponent := by omega
  have meet := (first.highEnd_le second before).2
  have begins := first.highEnd_mul_quarter_le second before
  have atEnd := inFirst.bounds.2
  have atBegin := inSecond.bounds.1
  have same : (a.highEnd : ℚ) * a.quarter = b.lowEnd * b.quarter := by linarith
  rw [quarter_eq_mul order, ← mul_assoc, mul_left_inj' a.quarter_pos.ne'] at same
  rcases meet (by exact_mod_cast same) with odd | odd
  · linarith [(inFirst.bounds_of_odd odd).2]
  · linarith [(inSecond.bounds_of_odd odd).1]

/-- Numbers whose intervals meet have the same magnitude. -/
theorem Canonical.eq_of_surrounds
    (first : a.Canonical)
    (second : b.Canonical)
    (inFirst : a.Surrounds point)
    (inSecond : b.Surrounds point) :
    a.mantissa = b.mantissa ∧ a.exponent = b.exponent := by
  by_contra differ
  have before : (a.exponent < b.exponent ∨ a.exponent = b.exponent ∧ a.mantissa < b.mantissa) ∨
      (b.exponent < a.exponent ∨ b.exponent = a.exponent ∧ b.mantissa < a.mantissa) := by
    omega
  rcases before with before | before
  · exact first.not_surrounds second before inFirst inSecond
  · exact second.not_surrounds first before inSecond inFirst

end Exact

/-- Numbers of the same sign whose intervals meet are the same. -/
theorem eq_of_surrounds
    {x y : Float}
    {a b : Exact}
    {point : ℚ}
    (first : Exact.ofFloat? x = some a)
    (second : Exact.ofFloat? y = some b)
    (sign : a.negative = b.negative)
    (inFirst : a.Surrounds point)
    (inSecond : b.Surrounds point) :
    x = y := by
  obtain ⟨mantissa, exponent⟩ := (canonical_of_ofFloat? first).eq_of_surrounds
    (canonical_of_ofFloat? second) inFirst inSecond
  have same : a = b := by
    cases a
    cases b
    simp only at sign mantissa exponent
    subst sign mantissa exponent
    rfl
  rw [same] at first
  exact eq_of_ofFloat? first second

end Number
end TinyScript
