import TinyScript.Library.Action
import TinyScript.Number.Read
import TinyScript.Text.Blank
import TinyScript.Value.Text

/-!
# The functions of the library

Each function first refuses a wrong number of arguments, then arguments of a
wrong type, one after the other.
-/

namespace TinyScript

/-- A function of one number. -/
def MathFunction.apply : MathFunction → Float → Float
  | .abs => Float.abs
  | .sqrt => Float.sqrt
  | .sin => Float.sin
  | .cos => Float.cos
  | .tan => Float.tan
  | .floor => Number.floor
  | .ceil => Number.ceiling
  | .round => Number.round
  | .log => Float.log
  | .exp => Float.exp

namespace Native

/-- The number that a text is, with white space around it or not. -/
def readNumber? (text : String) : Option Float :=
  Number.read? (Text.trim text.toList)

/-- The number that a value is or reads as; zero where it does not. -/
def toNumber : Value → Float
  | .number value => value
  | .string text => (readNumber? text).getD 0.0
  | _ => 0.0

/-- The number of characters, items or properties of a value. -/
def lengthOf (store : Store) : Value → Except Fault.Cause Nat
  | .string text => .ok text.length
  | .array ref => .ok (store.array ref).size
  | .object ref => .ok (store.object ref).size
  | value => .error (.noLength value.typeTag)

/-- The lesser of a number and one more; of equal ones the one more, which shows in the sign of a
zero.  One more that is no number does not count. -/
def lesser (a b : Float) : Float :=
  if b ≤ a then b else a

/-- The greater of a number and one more; of equal ones the one more, which shows in the sign of a
zero.  One more that is no number does not count. -/
def greater (a b : Float) : Float :=
  if a ≤ b then b else a

/-- Folds arguments that must be numbers, from the first on. -/
def foldNumbers (name : String) (pick : Float → Float → Float) (start : Float)
    (arguments : List Value) : Except Fault.Cause Value := do
  let result ← arguments.foldlM (fun best argument => do
    pure (pick best (← Arguments.number name argument))) start
  pure (.number result)

/-- The status that a script ends with: its argument as a 32-bit integer, or zero. -/
def exitStatus : List Value → Except Fault.Cause Int
  | [] => .ok 0
  | [value] => do
    pure (Number.clampInt (-2147483648) 2147483647 (← Arguments.number "exit" value))
  | arguments => .error (.tooMany "exit" 1 arguments.length)

/-- Calls a native function whose number of arguments will do. -/
def run (native : Native) (arguments : List Value) (scope : ScopeRef) (store : Store) :
    Except Fault.Cause Action := do
  let first := arguments.headD .undefined
  let second := arguments.getD 1 .undefined
  match native with
  | .length => pure (.yield (.number (Float.ofNat (← lengthOf store first))))
  | .int => pure (.yield (.number (Number.truncate (toNumber first))))
  | .float => pure (.yield (.number (toNumber first)))
  | .string => pure (.yield (.string (store.display first)))
  | .exit => pure (.exit (← exitStatus arguments))
  | .print => pure (.print (" ".intercalate (arguments.map store.display)))
  | .input => pure (.ask (first.string?.getD "") .readLine)
  | .time => pure (.ask "" .clock)
  | .math function =>
    let value ← Arguments.number function.name first
    pure (.yield (.number (function.apply value)))
  | .min => pure (.yield (← foldNumbers "min" lesser Number.infinity arguments))
  | .max => pure (.yield (← foldNumbers "max" greater (-Number.infinity) arguments))
  | .pow =>
    let base ← Arguments.number "pow" first
    let exponent ← Arguments.number "pow" second
    pure (.yield (.number (Float.pow base exponent)))
  | .random => pure (.ask "" .random)
  | .host name _ => pure (.ask "" (.host name arguments scope))

/-- Calls a native function. -/
def perform (native : Native) (arguments : List Value) (scope : ScopeRef) (store : Store) :
    Except Fault.Cause Action :=
  match native.arity? with
  | none => native.run arguments scope store
  | some arity =>
    if arguments.length = arity then native.run arguments scope store
    else .error (.arity native.name arity arguments.length)

end Native
end TinyScript
