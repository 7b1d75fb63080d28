import TinyScript.Console.Command

/-!
# The program

Carries out a command with the files, the input and the output of the system.
-/

namespace TinyScript
namespace Terminal

/-- What the system says of a file that cannot be read. -/
def fileReason : IO.Error → String
  | .noFileOrDirectory .. => "No such file or directory (os error 2)"
  | .permissionDenied .. => "Permission denied (os error 13)"
  | .inappropriateType .. => "Is a directory (os error 21)"
  | error => toString error

/-- Writes what a machine has put into its output, and leaves it empty. -/
def flushOutput (m : Machine) : IO Machine := do
  if m.store.output.text.isEmpty then
    pure m
  else
    let stdout ← IO.getStdout
    stdout.putStr m.store.output.text
    stdout.flush
    pure { m with store := { m.store with output := {} } }

/-- Answers a question of a program. -/
def replyTo (started : Nat) : Request → IO (Except String Value)
  | .readLine => do
    let line ← (← IO.getStdin).getLine
    pure (.ok (.string (String.ofList (Text.withoutLineBreaks line.toList))))
  | .clock => do
    let now ← IO.monoNanosNow
    pure (.ok (.number (Float.ofNat (now - started) / 1000000.0)))
  | .random => do
    let bits ← IO.rand 0 ((1 <<< 53) - 1)
    pure (.ok (.number (Float.ofNat bits / Float.ofNat (1 <<< 53))))
  | .host name _ _ => pure (.error ("unknown function `" ++ name ++ "`"))

/-- Takes up to so many steps, but none that needs an answer. -/
def takeSteps : Nat → Machine → Machine
  | 0, m => m
  | count + 1, m =>
    if m.outcome?.isSome || m.request?.isSome then m else takeSteps count m.step

/-- Runs a machine to its end, and writes its output as it goes. -/
partial def runToEnd (started : Nat) (m : Machine) : IO Machine := do
  let m ← flushOutput (takeSteps 10000 m)
  if m.outcome?.isSome then
    pure m
  else
    match m.request? with
    | none => runToEnd started m
    | some request => runToEnd started (m.answer (← replyTo started request))

/-- Runs a piece of source and gives what it came to, with the session as it is then. -/
def runSource (started : Nat) (session : Session) (source : String) :
    IO (Session.Result × Session) := do
  match Program.ofSource source with
  | .error diagnostic => pure (.refused diagnostic, session)
  | .ok program =>
    let m ← runToEnd started (Machine.ofProgram program session.scope session.store)
    pure ((Session.resultOf m).illustrate source, { session with store := m.store })

/-- Runs one piece of source and gives the status for the system. -/
def runOnce (started : Nat) (showsValue : Bool) (source : String) : IO UInt32 := do
  let (result, session) ← runSource started .standard source
  match result with
  | .value value =>
    if showsValue then
      IO.print (Command.shown session.store value)
    pure 0
  | .refused diagnostic =>
    IO.eprintln diagnostic.render
    pure 1
  | .exited status => pure (Command.statusByte status).toUInt32
  | .unfinished => pure 1

/-- Runs a dialogue until its input ends.  Only a person is shown a prompt. -/
partial def converse (started : Nat) (session : Session) (pending : String) : IO UInt32 := do
  let stdin ← IO.getStdin
  if ← stdin.isTty then
    IO.print (if pending.isEmpty then ">> " else ".. ")
    (← IO.getStdout).flush
  let typed ← stdin.getLine
  match (Editor.plain.read typed.toList).1 with
  | .ended => pure 0
  | .interrupted => if pending.isEmpty then pure 0 else converse started session ""
  | .failed reason =>
    IO.eprint (Command.fileMessage reason)
    pure 1
  | .line line =>
    match Dialogue.read pending line with
    | .leave => pure 0
    | .wait pending => converse started session pending
    | .run source =>
      let (result, session) ← runSource started session source
      match result with
      | .value value =>
        IO.print (Command.shown session.store value)
        (← IO.getStdout).flush
        converse started session ""
      | .refused diagnostic =>
        IO.eprintln diagnostic.render
        converse started session ""
      | .exited status => pure (Command.statusByte status).toUInt32
      | .unfinished => converse started session ""

/-- Runs the script in a file. -/
def runFile (started : Nat) (path : String) : IO UInt32 := do
  let contents ← (IO.FS.readBinFile path).toBaseIO
  match Command.decode (contents.mapError fileReason) with
  | .ok source => runOnce started false source
  | .error reason =>
    IO.eprint (Command.fileMessage reason)
    pure 1

/-- How the program is called. -/
def usage : String :=
  "usage: tinyscript [run SCRIPT | eval SOURCE | repl]"

/-- Carries out the command that the arguments spell; without any, a dialogue. -/
def perform (arguments : List String) : IO UInt32 := do
  let started ← IO.monoNanosNow
  match arguments with
  | [] | ["repl"] => converse started .standard ""
  | ["eval", source] | ["eval", "--", source] => runOnce started true source
  | ["run", path] | ["run", "--", path] => runFile started path
  | _ =>
    IO.eprintln usage
    pure 2

end Terminal
end TinyScript

/-- The program. -/
def main (arguments : List String) : IO UInt32 :=
  TinyScript.Terminal.perform arguments
