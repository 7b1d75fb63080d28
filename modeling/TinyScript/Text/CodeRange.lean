/-!
# Ranges of code points

Character classes are given as lists of closed ranges of code points.
-/

namespace TinyScript
namespace Text

/-- A closed range of code points, from the first to the last. -/
abbrev CodeRange : Type := Nat × Nat

/-- Whether a character lies in a range. -/
def CodeRange.contains (range : CodeRange) (c : Char) : Bool :=
  range.1 ≤ c.toNat && c.toNat ≤ range.2

end Text
end TinyScript
