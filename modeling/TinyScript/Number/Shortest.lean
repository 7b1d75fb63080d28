import TinyScript.Number.Exact

/-!
# The shortest decimal of a number

Every finite number stands for an interval of reals: those that lie nearer to it
than to its neighbours, the two ends included when its mantissa is even.  The
decimal of a number is taken from the coarsest grid of powers of ten that has a
point in the interval, so no shorter decimal is read back as the same number.
-/

namespace TinyScript
namespace Number

/-- The decimal `digits * 10 ^ exponent`. -/
structure Decimal where
  /-- The digits, read as one integer. -/
  digits : Nat
  /-- The place of the last digit. -/
  exponent : Int
  deriving DecidableEq, Repr

/-- The points of the grid of multiples of `10 ^ place`, measured against a number.  The
number is `value / point` grid steps from zero. -/
structure Grid where
  /-- Four times the mantissa, in the common unit. -/
  value : Nat
  /-- The lower end of the interval of the number, in the common unit. -/
  low : Nat
  /-- The upper end of the interval of the number, in the common unit. -/
  high : Nat
  /-- One step of the grid, in the common unit. -/
  point : Nat
  /-- Whether the ends belong to the interval. -/
  closed : Bool

namespace Grid

/-- The grid of multiples of `10 ^ place` for a positive number.  The neighbour below is only
half as far away when the mantissa is the least of its scale. -/
def of (x : Exact) (place : Int) : Grid :=
  let narrow := x.mantissa == Exact.hiddenBit && x.exponent != -1074
  let scale := Nat.pow 10 (-place).toNat <<< (x.exponent - 2).toNat
  { value := 4 * x.mantissa * scale
    low := (if narrow then 4 * x.mantissa - 1 else 4 * x.mantissa - 2) * scale
    high := (4 * x.mantissa + 2) * scale
    point := Nat.pow 10 place.toNat <<< (2 - x.exponent).toNat
    closed := x.mantissa % 2 == 0 }

/-- Whether a multiple of the step lies in the interval. -/
def holds (grid : Grid) (multiple : Nat) : Bool :=
  let real := multiple * grid.point
  if grid.closed then grid.low ≤ real && real ≤ grid.high
  else grid.low < real && real < grid.high

/-- The multiple of the step in the interval that is nearest to the number; of two equally
near ones the greater. -/
def nearest? (grid : Grid) : Option Nat :=
  let below := grid.value / grid.point
  let above := below + 1
  match grid.holds below, grid.holds above with
  | true, true => some (if 2 * grid.value < (2 * below + 1) * grid.point then below else above)
  | true, false => some below
  | false, true => some above
  | false, false => none

end Grid

/-- Grids from `place` down to finer ones, `count` of them; the first that has a point in the
interval gives the decimal. -/
def coarsest? (x : Exact) : (place : Int) → (count : Nat) → Option Decimal
  | _, 0 => none
  | place, count + 1 =>
    match (Grid.of x place).nearest? with
    | some digits => some { digits := digits, exponent := place }
    | none => coarsest? x (place - 1) count

/-- The value itself in decimal notation, however long. -/
def exactDecimal (x : Exact) : Decimal :=
  if 0 ≤ x.exponent then { digits := x.mantissa <<< x.exponent.toNat, exponent := 0 }
  else { digits := x.mantissa * Nat.pow 5 (-x.exponent).toNat, exponent := x.exponent }

/-- A place for which `10 ^ place` is above a positive number, and less than a thousand times
too large. -/
def placeAbove (x : Exact) : Int :=
  (x.exponent + x.mantissa.log2) * 30103 / 100000 + 2

/-- The shortest decimal of a positive number.  Twenty-four grids are enough, since seventeen
digits tell any two numbers apart. -/
def shortest (x : Exact) : Decimal :=
  (coarsest? x (placeAbove x) 24).getD (exactDecimal x)

/-- A decimal written with its point in place and without an exponent. -/
def Decimal.positional (decimal : Decimal) : List Char :=
  let digits := Nat.toDigits 10 decimal.digits
  let places := (-decimal.exponent).toNat
  if 0 ≤ decimal.exponent then
    digits ++ List.replicate decimal.exponent.toNat '0'
  else if places < digits.length then
    digits.take (digits.length - places) ++ '.' :: digits.drop (digits.length - places)
  else
    '0' :: '.' :: (List.replicate (places - digits.length) '0' ++ digits)

end Number
end TinyScript
