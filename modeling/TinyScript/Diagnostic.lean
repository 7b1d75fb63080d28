import TinyScript.Position
import TinyScript.Text.Lines

/-!
# Diagnostics

A diagnostic says what is wrong with a program, where, and shows the line in
question with carets under the offending part.
-/

namespace TinyScript

/-- The stage of processing that found a fault. -/
inductive Stage
  | lexer
  | parser
  | runtime
  deriving DecidableEq, Repr

/-- The word for a stage that opens the text of a diagnostic. -/
def Stage.name : Stage → String
  | .lexer => "Lexer"
  | .parser => "Parser"
  | .runtime => "Runtime"

/-- A fault of a program, as it is shown to its author. -/
structure Diagnostic where
  /-- The stage that found the fault. -/
  stage : Stage
  /-- What is wrong. -/
  message : String
  /-- Where it is wrong. -/
  position : Option Position := none
  /-- How many characters are wrong. -/
  width : Nat := 1
  /-- The line in question, with carets on a line of their own below it. -/
  snippet : Option String := none
  /-- Advice, one line each. -/
  notes : List String := []
  deriving DecidableEq, Repr

namespace Diagnostic

/-- The diagnostic with its place set. -/
def withPosition (diagnostic : Diagnostic) (position : Position) : Diagnostic :=
  { diagnostic with position := some position }

/-- The diagnostic with its width set; at least one caret is drawn. -/
def withWidth (diagnostic : Diagnostic) (width : Nat) : Diagnostic :=
  { diagnostic with width := max width 1 }

/-- The diagnostic with one more line of advice, behind those it has. -/
def withNote (diagnostic : Diagnostic) (note : String) : Diagnostic :=
  { diagnostic with notes := diagnostic.notes ++ [note] }

/-- A source line over a line of carets that starts at a column. -/
def pointer (line : List Char) (column width : Nat) : String :=
  String.ofList (line ++ '\n' :: (List.replicate column ' ' ++ List.replicate width '^'))

/-- The diagnostic with the line of `source` that it speaks of, if the text has that line. -/
def withSource (diagnostic : Diagnostic) (source : String) : Diagnostic :=
  match diagnostic.position with
  | none => diagnostic
  | some position =>
    match (Text.lines source.toList)[position.line]? with
    | none => diagnostic
    | some line =>
      { diagnostic with snippet := some (pointer line position.column diagnostic.width) }

/-- The diagnostic placed at `position`, unless it already has a place. -/
def locate (diagnostic : Diagnostic) (position : Position) : Diagnostic :=
  if diagnostic.position.isNone then diagnostic.withPosition position else diagnostic

/-- A diagnostic that has a place stays there. -/
theorem locate_of_isSome {diagnostic : Diagnostic} (placed : diagnostic.position.isSome)
    (position : Position) : diagnostic.locate position = diagnostic :=
  if_neg (by simp [Option.isSome_iff_ne_none.1 placed])

/-- The diagnostic with the line of `source` that it speaks of, unless it already shows one. -/
def illustrate (diagnostic : Diagnostic) (source : String) : Diagnostic :=
  if diagnostic.snippet.isNone then diagnostic.withSource source else diagnostic

/-- The whole text of a diagnostic: stage, message, place, snippet and notes. -/
def render (diagnostic : Diagnostic) : String :=
  diagnostic.stage.name ++ ": " ++ diagnostic.message ++
    (match diagnostic.position with
      | none => ""
      | some position => " at " ++ position.describe) ++
    (match diagnostic.snippet with
      | none => ""
      | some snippet => ":\n" ++ snippet) ++
    String.join (diagnostic.notes.map ("\n  note: " ++ ·))

end Diagnostic
end TinyScript
