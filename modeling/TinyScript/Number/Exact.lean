/-!
# The exact value of a number

A number of the language is a binary64 floating-point number.  A finite one is an
integer times a power of two, and the operations of this module work on that
exact value: rounding to an integer, the remainder of a division, and the
integer that a number counts to.
-/

namespace TinyScript
namespace Number

/-- The number that stands for the absence of a result. -/
def nan : Float := 0.0 / 0.0

/-- The number above all others. -/
def infinity : Float := 1.0 / 0.0

/-- A finite number, `± mantissa * 2 ^ exponent`. -/
structure Exact where
  /-- Whether the sign bit is set; zero has a sign too. -/
  negative : Bool
  /-- The integer that is scaled. -/
  mantissa : Nat
  /-- The power of two that scales it. -/
  exponent : Int
  deriving DecidableEq, Repr

namespace Exact

/-- The leading bit of a mantissa of 53 bits, which is not stored. -/
def hiddenBit : Nat := 1 <<< 52

/-- The exact value of a number, unless it is infinite or no number at all. -/
def ofFloat? (x : Float) : Option Exact :=
  let bits := x.toBits.toNat
  let negative := bits >>> 63 == 1
  let scale : Nat := (bits >>> 52) % 2048
  let fraction := bits % hiddenBit
  if scale = 2047 then
    none
  else if scale = 0 then
    some { negative := negative, mantissa := fraction, exponent := -1074 }
  else
    some
      { negative := negative
        mantissa := hiddenBit + fraction
        exponent := (scale : Int) - 1075 }

/-- The least exponent with which the value can be stored in 53 bits. -/
def storedExponent (value : Exact) : Int :=
  max (value.exponent + value.mantissa.log2 - 52) (-1074)

/-- The integer that is stored for the value, given the exponent that goes with it. -/
def storedMantissa (value : Exact) (exponent : Int) : Nat :=
  if exponent ≤ value.exponent then
    value.mantissa <<< (value.exponent - exponent).toNat
  else
    value.mantissa >>> (exponent - value.exponent).toNat

/-- The number with a given exact value.  It is meant for values that some number has. -/
def toFloat (value : Exact) : Float :=
  let exponent := value.storedExponent
  let mantissa := value.storedMantissa exponent
  let sign := if value.negative then 1 <<< 63 else 0
  let magnitude :=
    if mantissa < hiddenBit then mantissa
    else (exponent + 1075).toNat * hiddenBit + (mantissa - hiddenBit)
  Float.ofBits (sign + magnitude).toUInt64

/-- The integer part of the magnitude. -/
def wholePart (value : Exact) : Nat :=
  if 0 ≤ value.exponent then value.mantissa <<< value.exponent.toNat
  else value.mantissa >>> (-value.exponent).toNat

/-- Whether the value is an integer. -/
def isWhole (value : Exact) : Bool :=
  0 ≤ value.exponent || value.mantissa % (1 <<< (-value.exponent).toNat) == 0

/-- The integer next to the value in the direction of zero. -/
def toInt (value : Exact) : Int :=
  if value.negative then -(value.wholePart : Int) else value.wholePart

end Exact

/-- Rounds a number to an integer, away from zero where `away` says so of the sign, the part
lost and the unit that it is a part of.  The sign stays, also on a zero. -/
def roundWith (away : Bool → Nat → Nat → Bool) (x : Float) : Float :=
  match Exact.ofFloat? x with
  | none => x
  | some value =>
    if 0 ≤ value.exponent then x
    else
      let unit := 1 <<< (-value.exponent).toNat
      let whole := value.mantissa / unit
      let lost := value.mantissa % unit
      Exact.toFloat
        { negative := value.negative
          mantissa := if away value.negative lost unit then whole + 1 else whole
          exponent := 0 }

/-- The integer next to a number in the direction of zero. -/
def truncate : Float → Float :=
  roundWith fun _ _ _ => false

/-- The greatest integer that is not above a number. -/
def floor : Float → Float :=
  roundWith fun negative lost _ => negative && lost != 0

/-- The least integer that is not below a number. -/
def ceiling : Float → Float :=
  roundWith fun negative lost _ => !negative && lost != 0

/-- The integer nearest to a number; a half goes away from zero. -/
def round : Float → Float :=
  roundWith fun _ lost unit => unit ≤ 2 * lost

/-- What is left of `x` when `y` is taken away as often as it fits, exactly and with the sign
of `x`. -/
def remainder (x y : Float) : Float :=
  match Exact.ofFloat? x, Exact.ofFloat? y with
  | none, _ => nan
  | some _, none => if y.isNaN then nan else x
  | some a, some b =>
    if b.mantissa = 0 then nan
    else
      let exponent := min a.exponent b.exponent
      let left := a.mantissa <<< (a.exponent - exponent).toNat
      let right := b.mantissa <<< (b.exponent - exponent).toNat
      Exact.toFloat { negative := a.negative, mantissa := left % right, exponent := exponent }

/-- The place in a sequence that a number points at: the integer part of a finite number that
is not below zero. -/
def index? (x : Float) : Option Nat :=
  if x < 0.0 then none else (Exact.ofFloat? x).map Exact.wholePart

/-- The integer part of a number between two bounds; a number outside goes to the nearer
bound and one that is none to zero. -/
def clampInt (low high : Int) (x : Float) : Int :=
  match Exact.ofFloat? x with
  | some value => max low (min high value.toInt)
  | none => if x.isNaN then 0 else if x < 0.0 then low else high

end Number
end TinyScript
