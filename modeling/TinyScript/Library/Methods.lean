import TinyScript.Library.Action
import TinyScript.Text.LowerCase
import TinyScript.Text.Split
import TinyScript.Text.UpperCase
import TinyScript.Value.Text

/-!
# Member functions

The functions that texts, arrays, objects, numbers and functions carry as
members.  A member function keeps the value that it was taken from.
-/

namespace TinyScript
namespace Method

/-- The character at a place of a text, or the empty text where there is none. -/
def characterAt (text : List Char) (index : Float) : String :=
  match Number.index? index with
  | none => ""
  | some index => (text[index]?.map String.singleton).getD ""

/-- The characters of a text from one place up to another.  Both places must be finite, in
order and inside the text; of a place between two characters the one before it counts. -/
def substringOf (text : List Char) (start stop : Float) : Except Fault.Cause String :=
  let fault := .substringRange start stop text.length
  match Number.index? start, Number.index? stop with
  | some first, some last =>
    if start ≤ stop ∧ stop ≤ Float.ofNat text.length then
      .ok (String.ofList ((text.take last).drop first))
    else .error fault
  | _, _ => .error fault

/-- Whether two values have the same type and the same quoted text. -/
def sameText (store : Store) (a b : Value) : Bool :=
  a.typeTag == b.typeTag && store.repr a == store.repr b

/-- Calls a member function of a text. -/
def runText (method : Method) (text : String) (arguments : List Value) :
    Except Fault.Cause Action := do
  match method with
  | .textLength => pure (.yield (.number (Float.ofNat text.length)))
  | .upperCase => pure (.yield (.string (Text.toUpperCase text)))
  | .lowerCase => pure (.yield (.string (Text.toLowerCase text)))
  | .charAt =>
    let index ← Arguments.number "charAt" (← Arguments.single "charAt" arguments)
    pure (.yield (.string (characterAt text.toList index)))
  | .substring =>
    match arguments with
    | [start] =>
      let start ← Arguments.number "substring" start
      let piece ← substringOf text.toList start (Float.ofNat text.length)
      pure (.yield (.string piece))
    | [start, stop] =>
      let start ← Arguments.number "substring" start
      let stop ← Arguments.number "substring" stop
      let piece ← substringOf text.toList start stop
      pure (.yield (.string piece))
    | _ => throw .substringArity
  | .split =>
    let separator ← Arguments.string "split" (← Arguments.single "split" arguments)
    pure (.make ((Text.split separator text).map Value.string))
  | _ => pure (.yield .undefined)

/-- Calls a member function of an array. -/
def runArray (method : Method) (ref : ArrayRef) (arguments : List Value) (store : Store) :
    Except Fault.Cause Action := do
  match method with
  | .arrayLength => pure (.yield (.number (Float.ofNat (store.array ref).size)))
  | .push => if arguments.isEmpty then throw (.tooFew "push" 1 0) else pure (.push ref arguments)
  | .pop =>
    match (store.array ref).back? with
    | none => throw .popEmpty
    | some last => pure (.pop ref last)
  | .join =>
    let separator ← Arguments.string "join" (← Arguments.single "join" arguments)
    let texts := (store.array ref).toList.map store.display
    pure (.yield (.string (separator.intercalate texts)))
  | .includes =>
    let needle ← Arguments.single "includes" arguments
    pure (.yield (.bool ((store.array ref).any (sameText store · needle))))
  | _ => pure (.yield .undefined)

/-- Calls a member function of an object. -/
def runObject (method : Method) (ref : ObjectRef) (store : Store) : Action :=
  match method with
  | .keys => .make ((store.object ref).keys.map Value.string)
  | .values => .make (store.object ref).values
  | _ => .yield .undefined

/-- Calls a member function of a function: it must be given an argument for each parameter. -/
def runFunction (callee : Value) (function : Function) (arguments : List Value) :
    Except Fault.Cause Action :=
  let expected := function.parameters.length
  if arguments.length = expected then .ok (.apply callee arguments)
  else .error (.parameterCount function.name expected arguments.length)

/-- Calls the member function that shows a value as text. -/
def runDisplay (receiver : Value) (arguments : List Value) (store : Store) :
    Except Fault.Cause Action :=
  if arguments.isEmpty then .ok (.yield (.string (store.display receiver)))
  else .error (.arity "string" 0 arguments.length)

/-- Calls a member function. -/
def perform (method : Method) (receiver : Value) (arguments : List Value) (store : Store) :
    Except Fault.Cause Action :=
  match receiver with
  | .string text => method.runText text arguments
  | .array ref => method.runArray ref arguments store
  | .object ref => .ok (method.runObject ref store)
  | .function function _ => runFunction receiver function arguments
  | _ => runDisplay receiver arguments store

end Method
end TinyScript
