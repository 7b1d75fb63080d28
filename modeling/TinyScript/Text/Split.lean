/-!
# Splitting

A text is split at every occurrence of a separator, from front to back and
without overlap.  The pieces joined by the separator give the text again.
-/

namespace TinyScript
namespace Text

/-- Splits a text at a separator.  `skip` characters still belong to the separator found last,
and `piece` holds what was read since then, the latest character first. -/
def splitFrom (separator : List Char) : (skip : Nat) → (piece : List Char) → List Char →
    List (List Char)
  | _, piece, [] => [piece.reverse]
  | skip + 1, piece, _ :: rest => splitFrom separator skip piece rest
  | 0, piece, c :: rest =>
    if separator.isPrefixOf (c :: rest) then
      piece.reverse :: splitFrom separator (separator.length - 1) [] rest
    else
      splitFrom separator 0 (c :: piece) rest

/-- The pieces of a text between occurrences of a separator.  The empty separator stands between
any two characters and nowhere else. -/
def split (separator text : String) : List String :=
  if separator.isEmpty then text.toList.map String.singleton
  else (splitFrom separator.toList 0 [] text.toList).map String.ofList

end Text
end TinyScript
