import TinyScript.Console.Brackets
import TinyScript.Text.Blank

/-!
# Dialogues

In a dialogue lines are collected until every bracket is closed, and what has
been collected is then a piece of source.
-/

namespace TinyScript

/-- What a dialogue does after a line. -/
inductive Dialogue
  /-- It ends. -/
  | leave
  /-- It reads on, with what has been collected so far. -/
  | wait (pending : String)
  /-- It has a piece of source to run, and nothing is collected any more. -/
  | run (source : String)
  deriving DecidableEq, Repr

namespace Dialogue

/-- The words that end a dialogue when nothing has been collected. -/
def farewells : List String :=
  [":quit", ":exit"]

/-- Reads a line, given what has been collected.  A blank line with nothing collected is
skipped. -/
def read (pending line : String) : Dialogue :=
  let word := String.ofList (Text.trim line.toList)
  if pending.isEmpty && farewells.contains word then .leave
  else if pending.isEmpty && word.isEmpty then .wait ""
  else
    let collected := pending ++ line ++ "\n"
    if 0 < Brackets.depthOf collected then .wait collected else .run collected

end Dialogue
end TinyScript
