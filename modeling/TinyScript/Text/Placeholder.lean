import TinyScript.Text.Word

/-!
# Placeholders

A name in braces stands for the text of that name, if the name has one.  A text
is filled in from front to back: what a placeholder is replaced by is not looked
at again, and every brace that belongs to no placeholder is kept.
-/

namespace TinyScript
namespace Text

/-- The text that stands for what is between two braces, if that is a name which has one. -/
def placeholder? (meaning? : String → Option String) (inner : List Char) : Option (List Char) :=
  if isWord inner then (meaning? (String.ofList inner)).map String.toList else none

/-- Fills in a text.  `pending` holds what was read since an opening brace, the latest
character first. -/
def fillFrom (meaning? : String → Option String) : (pending : Option (List Char)) →
    List Char → List Char
  | none, [] => []
  | some inner, [] => '\x7b' :: inner.reverse
  | none, c :: rest =>
    if c = '\x7b' then fillFrom meaning? (some []) rest else c :: fillFrom meaning? none rest
  | some inner, c :: rest =>
    if c = '\x7b' then
      '\x7b' :: (inner.reverse ++ fillFrom meaning? (some []) rest)
    else if c = '\x7d' then
      match placeholder? meaning? inner.reverse with
      | some text => text ++ fillFrom meaning? none rest
      | none => '\x7b' :: (inner.reverse ++ '\x7d' :: fillFrom meaning? none rest)
    else
      fillFrom meaning? (some (c :: inner)) rest

/-- Replaces every name in braces by its text. -/
def fill (meaning? : String → Option String) (text : String) : String :=
  String.ofList (fillFrom meaning? none text.toList)

end Text
end TinyScript
