import TinyScript.Text.Numeric

/-!
# Words

The shape of names: an alphabetic character or an underscore, then any number of
alphabetic or numeric characters and underscores.
-/

namespace TinyScript
namespace Text

/-- A character that can begin a name. -/
def beginsWord (c : Char) : Bool :=
  isAlphabetic c || c == '_'

/-- A character that can stand in a name behind the first. -/
def continuesWord (c : Char) : Bool :=
  isAlphanumeric c || c == '_'

/-- A text that has the shape of a name; keywords have it too. -/
def isWord : List Char → Bool
  | [] => false
  | c :: rest => beginsWord c && rest.all continuesWord

/-- What can begin a name can also stand in it. -/
theorem continuesWord_of_beginsWord {c : Char} (begins : beginsWord c = true) :
    continuesWord c = true := by
  rw [beginsWord, Bool.or_eq_true] at begins
  rcases begins with alphabetic | underscore
  · simp [continuesWord, isAlphanumeric, alphabetic]
  · simp [continuesWord, underscore]

end Text
end TinyScript
