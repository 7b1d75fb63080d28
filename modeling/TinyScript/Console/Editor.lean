import TinyScript.Text.Lines

/-!
# Line editors

The lines of a dialogue are read by a line editor, which is not part of this
program.  It is asked for one line after the other, and only what comes of
asking matters here.
-/

namespace TinyScript

/-- What comes of asking for a line. -/
inductive Editor.Reading
  /-- A line, without its ending. -/
  | line (text : String)
  /-- Whoever types gives up the line. -/
  | interrupted
  /-- There are no more lines. -/
  | ended
  /-- The input cannot be read. -/
  | failed (reason : String)
  deriving DecidableEq, Repr

/-- A line editor. -/
structure Editor where
  /-- What comes of asking for a line with so much input ahead, and the input that is left. -/
  read : List Char → Editor.Reading × List Char

/-- The editor that reads every line as it was typed. -/
def Editor.plain : Editor where
  read input :=
    if input.isEmpty then (.ended, [])
    else
      let (line, ahead) := Text.takeLine input
      (.line (String.ofList (Text.withoutEnding line)), ahead)

end TinyScript
