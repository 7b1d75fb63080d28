import Mathlib
import TinyScript.Number.Exact

/-!
# The parts of numbers

A number is a sign, a mantissa and an exponent packed into 64 bits.  Its exact value is that of
the parts (`ofFloat?_eq_ofUnpacked?`), and the parts of a positive integer of at most 53 bits are
the integer itself, shifted until it has 53 bits (`unpack_ofNat`): nothing of it is rounded away.
-/

namespace TinyScript
namespace Number

open Float.Model
open Float.Model.UnpackedFloat

/-! ## From bits to parts -/

/-- The exact value of a number taken apart. -/
def Exact.ofUnpacked? : UnpackedFloat → Option Exact
  | .notANumber | .infinity _ => none
  | .zero sign => some { negative := sign == .negative, mantissa := 0, exponent := -1074 }
  | .finite sign mantissa exponent _ =>
    some { negative := sign == .negative, mantissa := mantissa, exponent := exponent }

/-- The bits of the exponent. -/
abbrev scaleBits (bits : BitVec 64) : BitVec Format.binary64.exponentBits :=
  unpackExponent bits

/-- The bits of the mantissa behind its leading bit. -/
abbrev fractionBits (bits : BitVec 64) : BitVec Format.binary64.mantissaBitsWithoutImplicit :=
  unpackMantissa bits

/-- The bit of the sign. -/
abbrev signBits (bits : BitVec 64) : BitVec 1 :=
  @unpackSign Format.binary64 bits

section Bits

variable (bits : BitVec 64)

theorem toNat_scaleBits :
    (scaleBits bits).toNat = (bits.toNat >>> 52) % 2048 := by
  rw [scaleBits, unpackExponent_def, BitVec.extractLsb'_toNat]
  rfl

theorem toNat_fractionBits :
    (fractionBits bits).toNat = bits.toNat % Exact.hiddenBit := by
  rw [fractionBits, unpackMantissa_def, BitVec.extractLsb'_toNat]
  rfl

theorem ofBitVec_signBits :
    (Sign.ofBitVec (signBits bits) == .negative) = (bits.toNat >>> 63 == 1) := by
  have one : (signBits bits).toNat = bits.toNat >>> 63 := by
    rw [signBits, unpackSign_def, BitVec.extractLsb'_toNat, Nat.mod_eq_of_lt]
    · rfl
    · have below := bits.isLt
      simp [Nat.shiftRight_eq_div_pow]
      omega
  rw [← one]
  generalize signBits bits = sign
  revert sign
  decide

theorem toNat_append_fractionBits :
    (1#1 ++ fractionBits bits).toNat = Exact.hiddenBit + (fractionBits bits).toNat := by
  rw [BitVec.toNat_append]
  exact (Nat.two_pow_add_eq_or_of_lt (fractionBits bits).isLt 1).symm

end Bits

/-- The exact value of a number is that of its parts. -/
theorem ofFloat?_eq_ofUnpacked?
    (x : Float) :
    Exact.ofFloat? x = Exact.ofUnpacked? x.toModel.unpack := by
  obtain ⟨⟨word, valid⟩⟩ := x
  have scale : _ = (word.toNat >>> 52) % 2048 := toNat_scaleBits word.toBitVec
  have fraction : _ = word.toNat % Exact.hiddenBit := toNat_fractionBits word.toBitVec
  have negative : _ = (word.toNat >>> 63 == 1) := ofBitVec_signBits word.toBitVec
  have read : Exact.ofFloat? (.ofModel { toBits := word, valid := valid }) =
      if (word.toNat >>> 52) % 2048 = 2047 then none
      else if (word.toNat >>> 52) % 2048 = 0 then
        some
          { negative := word.toNat >>> 63 == 1
            mantissa := word.toNat % Exact.hiddenBit
            exponent := -1074 }
      else
        some
          { negative := word.toNat >>> 63 == 1
            mantissa := Exact.hiddenBit + word.toNat % Exact.hiddenBit
            exponent := ((word.toNat >>> 52) % 2048 : Nat) - 1075 } :=
    rfl
  change _ = Exact.ofUnpacked? (UnpackedFloat.unpack Format.binary64 word.toBitVec)
  rw [read, ← scale, ← fraction, ← negative, ← toNat_append_fractionBits]
  -- The exponents that stand apart are those whose bits are all ones or all zeros.
  have noOnes (other : scaleBits word.toBitVec ≠ -1#_) :
      (scaleBits word.toBitVec).toNat ≠ 2047 :=
    fun all => other (BitVec.eq_of_toNat_eq all)
  fun_cases UnpackedFloat.unpack Format.binary64 word.toBitVec with
  | case1 _ _ _ _ ones _ => exact if_pos (congrArg BitVec.toNat ones)
  | case2 _ _ ones _ => exact if_pos (congrArg BitVec.toNat ones)
  | case3 mantissa _ sign _ other zeros none =>
    have lowest : (scaleBits word.toBitVec).toNat = 0 := congrArg BitVec.toNat zeros
    have empty : (fractionBits word.toBitVec).toNat = 0 := congrArg BitVec.toNat none
    rw [if_neg (noOnes other), if_pos lowest, empty]
    rfl
  | case4 mantissa scaled exponent sign value other zeros _ =>
    have lowest : (scaleBits word.toBitVec).toNat = 0 := congrArg BitVec.toNat zeros
    rw [if_neg (noOnes other), if_pos lowest]
    simp [Exact.ofUnpacked?, exponent, scaled, lowest, Format.exponentBias, value, sign, mantissa]
  | case5 mantissa scaled exponent sign value other notZeros =>
    have higher : (scaleBits word.toBitVec).toNat ≠ 0 :=
      fun none => notZeros (BitVec.eq_of_toNat_eq none)
    rw [if_neg (noOnes other), if_neg higher]
    simp [Exact.ofUnpacked?, exponent, scaled, Format.exponentBias, value, sign, mantissa]

/-! ## From parts to bits and back -/

/-- Parts with a mantissa of 53 bits are packed without loss. -/
theorem unpack_pack_finite
    {sign : Sign}
    {mantissa : Nat}
    {exponent : Int}
    {positive : 0 < mantissa}
    (bits : mantissa.log2 = 52)
    (above : -1075 < exponent)
    (below : exponent < 972) :
    (pack (.finite sign mantissa exponent positive)).unpack =
      .finite sign mantissa exponent positive := by
  have low : 2 ^ 52 ≤ mantissa := by
    rw [← bits]
    exact Nat.log2_self_le positive.ne'
  have high : mantissa < 2 ^ 53 := (Nat.log2_lt positive.ne').1 (by omega)
  obtain ⟨scale, rfl⟩ : ∃ scale : Nat, exponent = (scale : Int) - 1075 :=
    ⟨(exponent + 1075).toNat, by omega⟩
  have biased : ((scale : Int) - 1075 + (Format.binary64.exponentBias : Int) +
      (Format.binary64.mantissaBitsWithoutImplicit : Int)).toNat = scale := by
    simp [Format.exponentBias]
    omega
  have packed :
      UnpackedFloat.pack Format.binary64 (.finite sign mantissa ((scale : Int) - 1075) positive) =
        packComponents Format.binary64 sign (BitVec.ofNat _ scale) (BitVec.ofNat _ mantissa) := by
    simp only [UnpackedFloat.pack, biased]
    rw [if_neg, if_pos]
    · rw [bits]
      rfl
    · simp
      omega
  -- The leading bit is not stored, and is put back.
  have full :
      (1#1 ++ BitVec.ofNat Format.binary64.mantissaBitsWithoutImplicit mantissa).toNat =
        mantissa := by
    have joined := Nat.two_pow_add_eq_or_of_lt
      (BitVec.ofNat Format.binary64.mantissaBitsWithoutImplicit mantissa).isLt 1
    rw [BitVec.toNat_append]
    simp at joined ⊢
    omega
  have unbiased :
      ((BitVec.ofNat Format.binary64.exponentBits scale).toNat : Int) -
          (Format.binary64.exponentBias + Format.binary64.mantissaBitsWithoutImplicit : Int) =
        scale - 1075 := by
    simp [Format.exponentBias]
    omega
  change UnpackedFloat.unpack Format.binary64 (UnpackedFloat.pack Format.binary64 _) = _
  rw [packed]
  simp only [UnpackedFloat.unpack, unpackSign_packComponents, unpackExponent_packComponents,
    unpackMantissa_packComponents, Sign.ofBitVec_toBitVec]
  rw [if_neg, if_neg]
  · simp only [full, unbiased]
  · intro zeros
    have same := congrArg BitVec.toNat zeros
    simp at same
    omega
  · intro ones
    have same := congrArg BitVec.toNat ones
    simp at same
    omega

/-! ## Rounding what is exact -/

theorem repeat_shiftRightOne
    (mantissa count : Nat) :
    Nat.repeat ExtendedMantissa.shiftRightOne count
        { mantissa := mantissa * 2 ^ count, roundBit := false, stickyBit := false } =
      { mantissa := mantissa, roundBit := false, stickyBit := false } := by
  induction count generalizing mantissa with
  | zero => simp [Nat.repeat]
  | succ count ih =>
    have doubled := ih (2 * mantissa)
    rw [Nat.mul_comm 2, Nat.mul_assoc, ← Nat.pow_succ'] at doubled
    rw [Nat.repeat, doubled]
    simp [ExtendedMantissa.shiftRightOne]

theorem log2_mul_two_pow
    {m : Nat}
    (nonzero : m ≠ 0)
    (count : Nat) :
    (m * 2 ^ count).log2 = m.log2 + count := by
  have positive : 0 < 2 ^ count := by positivity
  rw [Nat.log2_eq_iff (Nat.mul_ne_zero nonzero positive.ne'), Nat.pow_add, Nat.add_right_comm,
    Nat.pow_add]
  constructor
  · exact Nat.mul_le_mul_right _ (Nat.log2_self_le nonzero)
  · exact Nat.mul_lt_mul_of_pos_right Nat.lt_log2_self positive

theorem shiftToTargetExponent_exact
    {mantissa : Nat}
    (exponent : Int)
    (count : Nat)
    (bits : mantissa.log2 = 52)
    (above : -1075 < exponent + count) :
    shiftToTargetExponent Format.binary64 (mantissa * 2 ^ count) exponent .exact =
      ({ mantissa := mantissa, roundBit := false, stickyBit := false }, exponent + count) := by
  have nonzero : mantissa ≠ 0 := by
    rintro rfl
    simp at bits
  have total : totalExponent (mantissa * 2 ^ count) exponent = 53 + (exponent + count) := by
    rw [totalExponent, log2_mul_two_pow nonzero, bits]
    push_cast
    ring
  have target :
      Format.binary64.targetExponent (53 + (exponent + count)) = exponent + count := by
    simp only [Format.targetExponent, Format.minExponent, Format.mantissaBits]
    simp
    omega
  have shift : (exponent + count - exponent).toNat = count := by omega
  rw [shiftToTargetExponent, total, target, shiftToExponent]
  simp only [shift]
  exact congrArg (·, exponent + (count : Int)) (repeat_shiftRightOne mantissa count)

/-- A value that 53 bits are enough for is not rounded. -/
theorem roundWithAccuracy_exact
    (sign : Sign)
    {mantissa : Nat}
    (exponent : Int)
    (count : Nat)
    (bits : mantissa.log2 = 52)
    (above : -1075 < exponent + count)
    (positive : 0 < mantissa) :
    roundWithAccuracy Format.binary64 sign (mantissa * 2 ^ count) exponent .exact =
      .finite sign mantissa (exponent + count) positive := by
  -- Rounding shifts a second time, by nothing.
  have again := shiftToTargetExponent_exact (exponent + count) 0 bits (by simpa using above)
  rw [Nat.pow_zero, Nat.mul_one] at again
  rw [roundWithAccuracy, shiftToTargetExponent_exact exponent count bits above]
  simp only [ExtendedMantissa.roundedMantissa, ExtendedMantissa.accuracy,
    Accuracy.roundToNearestEven, again]
  simp [positive.ne']

/-! ## Integers -/

section Integers

variable {m : Nat} (positive : 0 < m) (small : m < 2 ^ 53)

include positive small

theorem log2_le_of_lt :
    m.log2 ≤ 52 := by
  have below := (Nat.log2_lt positive.ne').2 small
  omega

theorem log2_shifted :
    (m * 2 ^ (52 - m.log2)).log2 = 52 := by
  have length := log2_le_of_lt positive small
  rw [log2_mul_two_pow positive.ne']
  omega

theorem normalize_ofNat :
    normalize Format.binary64 m 0 .positive =
      .finite .positive (m * 2 ^ (52 - m.log2)) (m.log2 - 52) (by positivity) := by
  have length := log2_le_of_lt positive small
  have order : compare (m : Int) 0 = .gt := compare_gt_iff_gt.2 (by omega)
  have target : Format.binary64.targetExponent (totalExponent m 0) = m.log2 - 52 := by
    simp only [Format.targetExponent, Format.minExponent, Format.mantissaBits, totalExponent]
    simp
    omega
  have shift : (0 - ((m.log2 : Int) - 52)).toNat = 52 - m.log2 := by omega
  have exponent : (0 : Int) - ((52 - m.log2 : Nat) : Int) = m.log2 - 52 := by omega
  have rounded := roundWithAccuracy_exact .positive ((m.log2 : Int) - 52) 0
    (log2_shifted positive small) (by simp; omega) (by positivity)
  unfold Float.Model.UnpackedFloat.normalize
  rw [order]
  simp only [Int.toNat_natCast, UnpackedFloat.round, target, decreaseExponent, shift, exponent,
    Nat.shiftLeft_eq]
  simpa using rounded

theorem unpack_toFloat :
    m.toUInt64.toFloat.toModel.unpack =
      .finite .positive (m * 2 ^ (52 - m.log2)) (m.log2 - 52) (by positivity) := by
  have length := log2_le_of_lt positive small
  have same : m.toUInt64.toNat = m := by
    simp
    omega
  change (Float.Model.pack (normalize Format.binary64 m.toUInt64.toNat 0 .positive)).unpack = _
  rw [same, normalize_ofNat positive small,
    unpack_pack_finite (log2_shifted positive small) (by omega) (by omega)]

omit positive small in
theorem unpack_one :
    (Float.ofBits 0x3FF0000000000000).toModel.unpack =
      .finite .positive (2 ^ 52) (-52) (by decide) :=
  rfl

/-- A positive integer of at most 53 bits is the number with its own bits. -/
theorem unpack_ofNat :
    (Float.ofNat m).toModel.unpack =
      .finite .positive (m * 2 ^ (52 - m.log2)) (m.log2 - 52) (by positivity) := by
  have length := log2_le_of_lt positive small
  -- An integer of this size is converted as a machine word and multiplied by one.
  have converted : Float.ofNat m = m.toUInt64.toFloat * Float.ofBits 0x3FF0000000000000 :=
    dif_pos ⟨small, by decide⟩
  have exponent : (m.log2 : Int) - 52 + -52 + (52 : Nat) = m.log2 - 52 := by omega
  have rounded := roundWithAccuracy_exact .positive ((m.log2 : Int) - 52 + -52) 52
    (log2_shifted positive small) (by push_cast; omega) (by positivity)
  simp only [exponent] at rounded
  rw [converted]
  change (Float.Model.pack (mul Format.binary64 m.toUInt64.toFloat.toModel.unpack _)).unpack = _
  rw [unpack_toFloat positive small, unpack_one]
  change (Float.Model.pack
    (roundWithAccuracy Format.binary64 .positive _ _ .exact)).unpack = _
  rw [rounded, unpack_pack_finite (log2_shifted positive small) (by omega) (by omega)]

end Integers

end Number
end TinyScript
