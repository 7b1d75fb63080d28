import TinyScript.Number.Shortest

/-!
# Numbers as text

Programs see a number as `display` writes it.  One message of the library shows
its numbers as `plain` writes them, which keeps the sign of a zero and names the
infinities otherwise.
-/

namespace TinyScript
namespace Number

/-- A number in its shortest decimal, with the sign of its zero. -/
def plain (x : Float) : String :=
  match Exact.ofFloat? x with
  | none => if x.isNaN then "NaN" else if x < 0.0 then "-inf" else "inf"
  | some value =>
    let digits := if value.mantissa = 0 then ['0'] else (shortest value).positional
    String.ofList (if value.negative then '-' :: digits else digits)

/-- The magnitude from which on an integer is written like any other number. -/
def integerLimit : Nat := 1000000000000000

/-- The text of a number in a program: an integer without a point, any other number in its
shortest decimal. -/
def display (x : Float) : String :=
  match Exact.ofFloat? x with
  | none => if x.isNaN then "NaN" else if x < 0.0 then "-Infinity" else "Infinity"
  | some value =>
    if value.isWhole && value.wholePart < integerLimit then toString value.toInt else plain x

end Number
end TinyScript
