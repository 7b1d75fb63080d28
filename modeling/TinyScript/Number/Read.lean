import TinyScript.Number.Exact

/-!
# Reading numbers

The numerals that are read as a number: an optional sign, then digits with at
most one point among, before or behind them, then an optional exponent; or, in
any case of letters, `inf`, `infinity` or `nan` in place of the digits.

An exponent is what its digits say as long as that is below 65536; the digits of a
larger one do not all count.
-/

namespace TinyScript
namespace Number

/-- An integer with one more decimal digit behind its others. -/
def appendDigit (value : Nat) (digit : Char) : Nat :=
  10 * value + (digit.toNat - '0'.toNat)

/-- The integer that a list of decimal digits is. -/
def ofDigits (digits : List Char) : Nat :=
  digits.foldl appendDigit 0

/-- An exponent that has reached this limit takes no more digits. -/
def exponentLimit : Nat := 65536

/-- An exponent with one more digit, which is left out of account beyond the limit. -/
def appendExponentDigit (value : Nat) (digit : Char) : Nat :=
  if value < exponentLimit then appendDigit value digit else value

/-- The size of an exponent.  The digits count up to the one with which the limit is reached;
a numeral with such an exponent is far outside the range of numbers, unless its own digits are as
many. -/
def ofExponentDigits (digits : List Char) : Nat :=
  digits.foldl appendExponentDigit 0

/-- A text without its sign, and whether the sign is a minus. -/
def splitSign : List Char → Bool × List Char
  | '-' :: rest => (true, rest)
  | '+' :: rest => (false, rest)
  | text => (false, text)

/-- The exponent at the end of a numeral: nothing at all, or a letter and an integer. -/
def readExponent? : List Char → Option Int
  | [] => some 0
  | c :: rest =>
    let (negative, digits) := splitSign rest
    if (c = 'e' ∨ c = 'E') ∧ digits ≠ [] ∧ digits.all Char.isDigit then
      some (if negative then -(ofExponentDigits digits : Int) else ofExponentDigits digits)
    else
      none

/-- So many digits decide to which number a decimal is nearest, up to one question.  The points
midway between two neighbouring numbers have no more digits than that, so of the digits behind only
matters whether all of them are zero. -/
def digitLimit : Nat := 800

/-- Digits of which those behind the limit are put together in one: a zero if all of them are
zeros, and otherwise a one. -/
def condense (digits : List Char) : List Char :=
  if digits.length ≤ digitLimit then digits
  else
    digits.take digitLimit ++
      [if (digits.drop digitLimit).all (· == '0') then '0' else '1']

theorem condense_of_length_le {digits : List Char} (short : digits.length ≤ digitLimit) :
    condense digits = digits :=
  if_pos short

/-- The number nearest to `digits * 10 ^ exponent`; the first digit is not zero.  Powers of ten far
outside the range of numbers are not worked out: the result is infinite or zero. -/
def ofDecimal (digits : List Char) (exponent : Int) : Float :=
  let size : Int := digits.length + exponent
  if digits.isEmpty ∨ size < -400 then 0.0
  else if 400 < size then infinity
  else
    let kept := condense digits
    let place : Int := exponent + (digits.length - kept.length)
    Float.ofScientific (ofDigits kept) (place < 0) place.natAbs

/-- Reads a numeral without a sign and made of digits. -/
def readDecimal? (text : List Char) : Option Float :=
  let whole := text.takeWhile Char.isDigit
  let behind := text.dropWhile Char.isDigit
  let (fraction, rest) :=
    match behind with
    | '.' :: more => (more.takeWhile Char.isDigit, more.dropWhile Char.isDigit)
    | more => ([], more)
  if whole = [] ∧ fraction = [] then
    none
  else
    (readExponent? rest).map fun exponent =>
      ofDecimal ((whole ++ fraction).dropWhile (· == '0')) (exponent - fraction.length)

/-- Reads a numeral. -/
def read? (text : List Char) : Option Float :=
  let (negative, rest) := splitSign text
  let word := rest.map Char.toLower
  let magnitude :=
    if word = "inf".toList ∨ word = "infinity".toList then some infinity
    else if word = "nan".toList then some nan
    else readDecimal? rest
  magnitude.map fun x => if negative then -x else x

/-- The integer that decimal digits are, unless it takes more than 64 bits.  Integers of more than
twenty digits do. -/
def ofDigits64? (digits : List Char) : Option Nat :=
  let significant := digits.dropWhile (· == '0')
  if significant.length ≤ 20 ∧ ofDigits significant < UInt64.size then
    some (ofDigits significant)
  else
    none

/-- Reads the place of an element: decimal digits, a plus sign before them or not, for a
value of at most 64 bits. -/
def readIndex? (text : List Char) : Option Nat :=
  let digits :=
    match text with
    | '+' :: rest => rest
    | _ => text
  if digits ≠ [] ∧ digits.all Char.isDigit then ofDigits64? digits else none

end Number
end TinyScript
