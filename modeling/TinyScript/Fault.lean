import TinyScript.Diagnostic
import TinyScript.Number.Text
import TinyScript.Value

/-!
# Faults of a run

A fault is the reason why a run was broken off.  It is kept as what happened,
with the values that the message names, and is put into words in one place.
-/

namespace TinyScript

/-- What went wrong. -/
inductive Fault.Cause
  /-- An arithmetic operation on values that it is not for. -/
  | unsupported (left : TypeTag) (op : Arithmetic) (right : TypeTag)
  /-- A comparison of values that are not both numbers. -/
  | incomparable (left right : TypeTag)
  | negation (operand : TypeTag)
  | unaryPlus (operand : TypeTag)
  /-- A change by one of what is not a variable. -/
  | stepTarget (op : StepOp)
  /-- A change by one of a variable that holds no number. -/
  | stepValue (op : StepOp) (name : String)
  | assignmentTarget
  | propertyKey (key : TypeTag)
  /-- A text that is no place in an array. -/
  | indexText (text : String)
  | indexType (key : TypeTag)
  | indexRange (index : Float) (length : Nat)
  /-- An assignment to a property of what has none. -/
  | noProperties (subject : TypeTag)
  | notCallable (callee : TypeTag)
  /-- A number of arguments other than the one that is expected. -/
  | arity (name : String) (expected got : Nat)
  | tooFew (name : String) (least got : Nat)
  | tooMany (name : String) (most got : Nat)
  | parameterCount (name : Option String) (expected got : Nat)
  | substringArity
  /-- An argument that is not of the type that is expected. -/
  | argument (name : String) (expected got : TypeTag)
  | noLength (subject : TypeTag)
  | popEmpty
  | substringRange (start stop : Float) (length : Nat)
  /-- A fault of a function of the surrounding program. -/
  | host (message : String)

/-- A number of arguments in words. -/
def Fault.arguments (count : Nat) : String :=
  toString count ++ (if count = 1 then " argument" else " arguments")

/-- What went wrong, in words. -/
def Fault.Cause.message : Fault.Cause → String
  | .unsupported left op right =>
    "unsupported binary operation: " ++ left.name ++ " " ++ op.symbol ++ " " ++ right.name
  | .incomparable left right =>
    "cannot compare non-numeric values: " ++ left.name ++ " and " ++ right.name
  | .negation operand => "cannot negate value of type " ++ operand.name
  | .unaryPlus operand => "cannot apply unary `+` to value of type " ++ operand.name
  | .stepTarget op => "`" ++ op.symbol ++ "` is only valid on identifiers"
  | .stepValue op name =>
    "cannot apply `" ++ op.symbol ++ "` to non-number variable `" ++ name ++ "`"
  | .assignmentTarget => "invalid assignment target"
  | .propertyKey key => "invalid property key of type " ++ key.name
  | .indexText text => "invalid array index `" ++ text ++ "`"
  | .indexType key => "array index must be a number, got " ++ key.name
  | .indexRange index length =>
    "array index " ++ Number.display index ++ " out of bounds for length " ++ toString length
  | .noProperties subject => "cannot assign property on value of type " ++ subject.name
  | .notCallable callee => "cannot call non-function value of type " ++ callee.name
  | .arity name expected got =>
    name ++ " expects " ++ Fault.arguments expected ++ ", got " ++ toString got
  | .tooFew name least got =>
    name ++ " expects at least " ++ Fault.arguments least ++ ", got " ++ toString got
  | .tooMany name most got =>
    name ++ " expects at most " ++ Fault.arguments most ++ ", got " ++ toString got
  | .parameterCount name expected got =>
    "function " ++ name.getD "lambda" ++ " expects " ++ toString expected ++
      " arguments, got " ++ toString got
  | .substringArity => "substring expects one or two arguments"
  | .argument name expected got =>
    name ++ " expects a " ++ expected.name ++ ", got " ++ got.name
  | .noLength subject => "length not supported for type " ++ subject.name
  | .popEmpty => "pop called on an empty array"
  | .substringRange start stop length =>
    "substring indices out of bounds: " ++ Number.plain start ++ ".." ++ Number.plain stop ++
      " for length " ++ toString length
  | .host message => message

/-- A cause with the operation that it arose in. -/
structure Fault where
  cause : Fault.Cause
  /-- The place of the operation; a call from outside a program has none. -/
  position : Option Position

/-- A fault as it is shown, with the place of its operation if it has one. -/
def Fault.diagnostic (fault : Fault) : Diagnostic :=
  let diagnostic : Diagnostic := { stage := .runtime, message := fault.cause.message }
  match fault.position with
  | none => diagnostic
  | some position => diagnostic.locate position

end TinyScript
