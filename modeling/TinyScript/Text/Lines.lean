/-!
# Lines of a text

A line ends at a line feed, and a carriage return just before it belongs to the
ending.  What follows the last line feed is a line only if it is not empty, and
keeps its carriage return.
-/

namespace TinyScript
namespace Text

/-- The lines of a text, without their endings. -/
def lines : List Char → List (List Char)
  | [] => []
  | '\n' :: rest => [] :: lines rest
  | '\r' :: '\n' :: rest => [] :: lines rest
  | c :: rest =>
    match lines rest with
    | [] => [[c]]
    | line :: others => (c :: line) :: others

/-- The first line of a text with its ending, and the rest of the text. -/
def takeLine : List Char → List Char × List Char
  | [] => ([], [])
  | c :: rest =>
    if c = '\n' then ([c], rest)
    else
      let (line, others) := takeLine rest
      (c :: line, others)

/-- Taking a line off a text loses nothing. -/
theorem takeLine_append (text : List Char) : (takeLine text).1 ++ (takeLine text).2 = text := by
  induction text with
  | nil => rfl
  | cons c rest ih =>
    rw [takeLine]
    split
    · rfl
    · simp [ih]

/-- A line without its ending: a line feed, and one carriage return before it. -/
def withoutEnding (line : List Char) : List Char :=
  match line.reverse with
  | '\n' :: '\r' :: rest => rest.reverse
  | '\n' :: rest => rest.reverse
  | _ => line

/-- A line without any line feeds and carriage returns at its end. -/
def withoutLineBreaks (line : List Char) : List Char :=
  (line.reverse.dropWhile fun c => c == '\n' || c == '\r').reverse

end Text
end TinyScript
