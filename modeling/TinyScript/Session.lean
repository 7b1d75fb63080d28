import TinyScript.Grammar.Program
import TinyScript.Library.Install
import TinyScript.Machine.Run

/-!
# Sessions

A session keeps a store and a global scope from one piece of source to the next.
Whatever a piece changed before it failed stays changed.
-/

namespace TinyScript

/-- What is kept between two pieces of source. -/
structure Session where
  /-- The global scope. -/
  scope : ScopeRef
  store : Store

/-- What a piece of source or a call came to. -/
inductive Session.Result
  | value (value : Value)
  /-- A fault, or a piece of source that is no program. -/
  | refused (diagnostic : Diagnostic)
  | exited (status : Int)
  /-- The run was not over within the steps it was given. -/
  | unfinished

namespace Session

variable {State : Type}

/-- A session whose global scope is empty, without arrays and objects. -/
def bare : Session :=
  let (scope, store) := Store.empty.newRoot
  { scope := scope, store := store }

/-- A session whose global scope holds the names of the library. -/
def standard : Session :=
  { bare with store := Library.install bare.store bare.scope }

/-- What a machine has come to. -/
def resultOf (m : Machine) : Result :=
  match m.outcome? with
  | none => .unfinished
  | some (.completed value) => .value value
  | some (.failed fault) => .refused fault.diagnostic
  | some (.exited status) => .exited status

/-- A result whose diagnostic, if it is one, shows the line of `source` that it speaks of. -/
def Result.illustrate (source : String) : Result → Result
  | .refused diagnostic => .refused (diagnostic.illustrate source)
  | result => result

/-- Runs a machine from the session's store and keeps the store that it leaves. -/
def runMachine (host : Host State) (limit : Nat) (session : Session) (m : Store → Machine)
    (state : State) : Result × Session × State :=
  let (m, state) := (m session.store).run host limit state
  (resultOf m, { session with store := m.store }, state)

/-- Runs a program in a scope. -/
def runProgram (host : Host State) (limit : Nat) (session : Session) (program : Program)
    (scope : ScopeRef) (state : State) : Result × Session × State :=
  session.runMachine host limit (Machine.ofProgram program scope) state

/-- Runs a piece of source in the global scope.  Diagnostics show the line of this piece that
has the number they name. -/
def runSource (host : Host State) (limit : Nat) (session : Session) (source : String)
    (state : State) : Result × Session × State :=
  match Program.ofSource source with
  | .error diagnostic => (.refused diagnostic, session, state)
  | .ok program =>
    let (result, session, state) := session.runProgram host limit program session.scope state
    (result.illustrate source, session, state)

/-- Calls a value from outside. -/
def call (host : Host State) (limit : Nat) (session : Session) (callee : Value)
    (arguments : List Value) (state : State) : Result × Session × State :=
  session.runMachine host limit (Machine.ofCall callee arguments session.scope) state

end Session
end TinyScript
