import TinyScript.Console.Dialogue
import TinyScript.Console.Editor
import TinyScript.Session

/-!
# Commands

What the program does for each of its commands, as a function of its input.  The
input is one text, and lines are taken off its front by the line editor of the
dialogue and by the programs that it runs.
-/

namespace TinyScript

/-- What the program can be asked to do. -/
inductive Command
  /-- Runs a piece of source and shows its value. -/
  | eval (source : String)
  /-- Runs the contents of a file, or says why there are none. -/
  | run (contents : Except String ByteArray)
  /-- Runs a dialogue. -/
  | interact

/-- Everything that a command leaves behind. -/
structure Command.Transcript where
  output : String
  errors : String
  /-- The status for the system, which keeps eight bits of it. -/
  status : Nat
  deriving DecidableEq, Repr

namespace Command

/-- A host that reads lines from a text.  Its clock stands still at half a millisecond and its
random number is always a half. -/
def textHost : Host (List Char) where
  readLine input := Text.takeLine input
  clock input := (0.5, input)
  random input := (0.5, input)
  call name _ _ store input := (.error ("unknown function `" ++ name ++ "`"), store, input)

/-- The eight bits of a status that the system keeps. -/
def statusByte (status : Int) : Nat :=
  (status % 256).toNat

/-- A message about a file or an input that cannot be read. -/
def fileMessage (reason : String) : String :=
  "I/O error: " ++ reason ++ "\n"

/-- The source in the contents of a file. -/
def decode (contents : Except String ByteArray) : Except String String := do
  match String.fromUTF8? (← contents) with
  | some source => pure source
  | none => throw "stream did not contain valid UTF-8"

/-- The line that shows a value; the absence of a result is not shown. -/
def shown (store : Store) (value : Value) : String :=
  if value.isVoid then "" else store.display value ++ "\n"

/-- Runs one piece of source in a new session. -/
def runOnce (limit : Nat) (showsValue : Bool) (source : String) (input : List Char) :
    Option Transcript :=
  let (result, session, _) := Session.standard.runSource textHost limit source input
  let output := session.store.output.text
  match result with
  | .value value =>
    let line := if showsValue then shown session.store value else ""
    some { output := output ++ line, errors := "", status := 0 }
  | .refused diagnostic =>
    some { output := output, errors := diagnostic.render ++ "\n", status := 1 }
  | .exited status => some { output := output, errors := "", status := statusByte status }
  | .unfinished => none

/-- A dialogue on its way through its input. -/
structure Conversation where
  session : Session
  /-- The lines of an unfinished piece of source. -/
  pending : String
  /-- The input that has not been read. -/
  input : List Char
  /-- The diagnostics shown so far. -/
  errors : String

/-- Goes on with a dialogue for at most `lines` lines, which an editor reads. -/
def converse (editor : Editor) (limit : Nat) : (lines : Nat) → Conversation → Option Transcript
  | 0, _ => none
  | lines + 1, talk =>
    let finished (status : Nat) (session : Session) : Transcript :=
      { output := session.store.output.text, errors := talk.errors, status := status }
    let (reading, input) := editor.read talk.input
    match reading with
    | .ended => some (finished 0 talk.session)
    | .interrupted =>
      if talk.pending.isEmpty then some (finished 0 talk.session)
      else converse editor limit lines { talk with pending := "", input := input }
    | .failed reason =>
      some { finished 1 talk.session with errors := talk.errors ++ fileMessage reason }
    | .line line =>
      match Dialogue.read talk.pending line with
      | .leave => some (finished 0 talk.session)
      | .wait pending =>
        converse editor limit lines { talk with pending := pending, input := input }
      | .run source =>
        let (result, session, input) := talk.session.runSource textHost limit source input
        let next : Conversation :=
          { session := session, pending := "", input := input, errors := talk.errors }
        match result with
        | .value value =>
          let store := session.store.write (shown session.store value)
          converse editor limit lines { next with session := { session with store := store } }
        | .refused diagnostic =>
          converse editor limit lines
            { next with errors := talk.errors ++ diagnostic.render ++ "\n" }
        | .exited status => some (finished (statusByte status) session)
        | .unfinished => none

/-- Carries out a command.  There is no transcript if a run takes more than `limit` steps, or if
the editor reads more lines than the input has characters. -/
def perform (editor : Editor) (command : Command) (limit : Nat) (input : String) :
    Option Transcript :=
  match command with
  | .eval source => runOnce limit true source input.toList
  | .run contents =>
    match decode contents with
    | .ok source => runOnce limit false source input.toList
    | .error reason => some { output := "", errors := fileMessage reason, status := 1 }
  | .interact =>
    converse editor limit (input.length + 1)
      { session := .standard, pending := "", input := input.toList, errors := "" }

end Command
end TinyScript
