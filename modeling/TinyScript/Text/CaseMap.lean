import TinyScript.Text.CodeRange

/-!
# Case mappings

A case mapping sends most characters to one other character at a fixed distance,
and a few to several.  The first kind is listed in runs, the second one by one.
-/

namespace TinyScript
namespace Text

/-- Characters at equal steps that all move by the same distance. -/
structure CaseRun where
  /-- The first code point of the run. -/
  first : Nat
  /-- The last code point of the run. -/
  last : Nat
  /-- The distance between two neighbours of the run. -/
  step : Nat
  /-- What is added to a code point of the run. -/
  shift : Int

/-- The code point that a run sends a code point to, if it is of the run. -/
def CaseRun.image? (run : CaseRun) (code : Nat) : Option Nat :=
  if run.first ≤ code ∧ code ≤ run.last ∧ (code - run.first) % run.step = 0 then
    some (code + run.shift).toNat
  else
    none

/-- The image of a character under a mapping; characters that it does not list are kept. -/
def mapCase (runs : List CaseRun) (expansions : List (Nat × List Nat)) (c : Char) : List Char :=
  match expansions.lookup c.toNat with
  | some codes => codes.map Char.ofNat
  | none =>
    match runs.findSome? (·.image? c.toNat) with
    | some code => [Char.ofNat code]
    | none => [c]

end Text
end TinyScript
