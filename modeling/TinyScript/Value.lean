import TinyScript.Syntax

/-!
# Values

Arrays and objects live in a store, and a value refers to them by number; two
values that refer to the same one share its contents.  A function remembers the
scope that it was made in.
-/

namespace TinyScript

/-- A scope of a store. -/
structure ScopeRef where
  index : Nat
  deriving DecidableEq, Repr

/-- An array of a store. -/
structure ArrayRef where
  index : Nat
  deriving DecidableEq, Repr

/-- An object of a store. -/
structure ObjectRef where
  index : Nat
  deriving DecidableEq, Repr

/-- The functions of one number. -/
inductive MathFunction
  | abs
  | sqrt
  | sin
  | cos
  | tan
  | floor
  | ceil
  | round
  | log
  | exp
  deriving DecidableEq, Repr

/-- The functions that are not written in the language. -/
inductive Native
  | length
  | int
  | float
  | string
  | exit
  | print
  | input
  | time
  | math (function : MathFunction)
  | min
  | max
  | pow
  | random
  /-- A function of the surrounding program, with the number of its arguments if that is fixed. -/
  | host (name : String) (arity : Option Nat)
  deriving DecidableEq, Repr

/-- The functions that values carry as members. -/
inductive Method
  | display
  | textLength
  | upperCase
  | lowerCase
  | charAt
  | substring
  | split
  | arrayLength
  | push
  | pop
  | join
  | includes
  | keys
  | values
  | call
  deriving DecidableEq, Repr

/-- A value of the language. -/
inductive Value
  | null
  | undefined
  /-- The result of what has none: a loop, a block without statements, a call that ends without
  a value. -/
  | void
  | number (value : Float)
  | bool (value : Bool)
  | string (value : String)
  | array (ref : ArrayRef)
  | object (ref : ObjectRef)
  | function (function : Function) (scope : ScopeRef)
  | native (native : Native)
  /-- A member function together with the value that it was taken from. -/
  | method (receiver : Value) (method : Method)

instance : Inhabited Value :=
  ⟨.undefined⟩

/-- The types that programs tell apart. -/
inductive TypeTag
  | null
  | undefined
  | void
  | number
  | boolean
  | string
  | array
  | object
  | function
  | native
  deriving DecidableEq, Repr

/-- The word for a type. -/
def TypeTag.name : TypeTag → String
  | .null => "null"
  | .undefined => "undef"
  | .void => "void"
  | .number => "number"
  | .boolean => "boolean"
  | .string => "string"
  | .array => "array"
  | .object => "object"
  | .function => "function"
  | .native => "native-fn"

namespace Value

/-- The type of a value. -/
def typeTag : Value → TypeTag
  | .null => .null
  | .undefined => .undefined
  | .void => .void
  | .number _ => .number
  | .bool _ => .boolean
  | .string _ => .string
  | .array _ => .array
  | .object _ => .object
  | .function _ _ => .function
  | .native _ | .method _ _ => .native

/-- The number that a value is. -/
def number? : Value → Option Float
  | .number value => some value
  | _ => none

/-- The text that a value is. -/
def string? : Value → Option String
  | .string value => some value
  | _ => none

/-- Whether a value is the absence of a result. -/
def isVoid : Value → Bool
  | .void => true
  | _ => false

/-- Whether two values are equal.  Arrays, objects and functions equal nothing, not even
themselves, and a number that is none does not either. -/
def equals : Value → Value → Bool
  | .null, .null | .undefined, .undefined | .void, .void => true
  | .number a, .number b => a == b
  | .bool a, .bool b => a == b
  | .string a, .string b => a == b
  | _, _ => false

end Value

/-- The name of a function of one number. -/
def MathFunction.name : MathFunction → String
  | .abs => "abs"
  | .sqrt => "sqrt"
  | .sin => "sin"
  | .cos => "cos"
  | .tan => "tan"
  | .floor => "floor"
  | .ceil => "ceil"
  | .round => "round"
  | .log => "log"
  | .exp => "exp"

/-- The name that a native function shows and uses in its messages. -/
def Native.name : Native → String
  | .length => "length"
  | .int => "int"
  | .float => "float"
  | .string => "string"
  | .exit => "exit"
  | .print => "print"
  | .input => "input"
  | .time => "time"
  | .math function => function.name
  | .min => "min"
  | .max => "max"
  | .pow => "pow"
  | .random => "random"
  | .host name _ => name

/-- The number of arguments that a native function must be given, if there is one. -/
def Native.arity? : Native → Option Nat
  | .length | .int | .float | .string | .math _ => some 1
  | .time | .random => some 0
  | .pow => some 2
  | .exit | .print | .input | .min | .max => none
  | .host _ arity => arity

/-- The name of a member function. -/
def Method.name : Method → String
  | .display => "string"
  | .textLength | .arrayLength => "length"
  | .upperCase => "toUpperCase"
  | .lowerCase => "toLowerCase"
  | .charAt => "charAt"
  | .substring => "substring"
  | .split => "split"
  | .push => "push"
  | .pop => "pop"
  | .join => "join"
  | .includes => "includes"
  | .keys => "keys"
  | .values => "values"
  | .call => "call"

/-- The member functions of the values of a type. -/
def Method.ofType : TypeTag → List Method
  | .number | .boolean => [.display]
  | .string => [.textLength, .upperCase, .lowerCase, .charAt, .substring, .split]
  | .array => [.arrayLength, .push, .pop, .join, .includes]
  | .object => [.keys, .values]
  | .function => [.call]
  | .null | .undefined | .void | .native => []

/-- The member function of a name that the values of a type have. -/
def Method.find? (tag : TypeTag) (name : String) : Option Method :=
  (ofType tag).find? (·.name == name)

end TinyScript
