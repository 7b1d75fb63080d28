import TinyScript.Fault
import TinyScript.Store

/-!
# What a call asks for

A function that is not written in the language looks at the store and ends in an
action.  The action says what is to be done, and nothing but that changes the
store.
-/

namespace TinyScript

/-- A question that only the surrounding program can answer, by a value or a fault. -/
inductive Request
  /-- The next line of input, without its ending. -/
  | readLine
  /-- The milliseconds since the session began. -/
  | clock
  /-- A number from zero up to one. -/
  | random
  /-- The result of a function of the surrounding program. -/
  | host (name : String) (arguments : List Value) (scope : ScopeRef)

/-- How a call goes on. -/
inductive Action
  | yield (value : Value)
  /-- A new array of these items is made and yielded. -/
  | make (items : List Value)
  /-- Items are added to an array, and its new length is yielded. -/
  | push (ref : ArrayRef) (items : List Value)
  /-- The last item of an array is taken off and yielded. -/
  | pop (ref : ArrayRef) (last : Value)
  | print (line : String)
  /-- A prompt is written, and the surrounding program answers. -/
  | ask (prompt : String) (request : Request)
  | apply (callee : Value) (arguments : List Value)
  /-- The end of the whole run, with the status for the system. -/
  | exit (status : Int)

namespace Arguments

/-- An argument that must be a number. -/
def number (name : String) (value : Value) : Except Fault.Cause Float :=
  match value with
  | .number value => .ok value
  | _ => .error (.argument name .number value.typeTag)

/-- An argument that must be a text. -/
def string (name : String) (value : Value) : Except Fault.Cause String :=
  match value with
  | .string value => .ok value
  | _ => .error (.argument name .string value.typeTag)

/-- The only argument there must be. -/
def single (name : String) (arguments : List Value) : Except Fault.Cause Value :=
  match arguments with
  | [value] => .ok value
  | _ => .error (.arity name 1 arguments.length)

end Arguments
end TinyScript
