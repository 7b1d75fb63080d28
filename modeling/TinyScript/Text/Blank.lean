import TinyScript.Text.CodeRange

/-!
# White space

The Unicode property White_Space, and trimming by it.
-/

namespace TinyScript
namespace Text

/-- The ranges of white space characters. -/
def blankRanges : List CodeRange :=
  [
    (0x9, 0xD), (0x20, 0x20), (0x85, 0x85), (0xA0, 0xA0), (0x1680, 0x1680), (0x2000, 0x200A),
    (0x2028, 0x2029), (0x202F, 0x202F), (0x205F, 0x205F), (0x3000, 0x3000)]

/-- A white space character, the line feed among them. -/
def isBlank (c : Char) : Bool :=
  blankRanges.any (·.contains c)

/-- A text without the white space at its two ends. -/
def trim (text : List Char) : List Char :=
  ((text.dropWhile isBlank).reverse.dropWhile isBlank).reverse

end Text
end TinyScript
