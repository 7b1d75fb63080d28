import TinyScript.Store

/-!
# The names of the library

Installing the library makes its two objects and binds its names in a scope, as
constants.
-/

namespace TinyScript
namespace Library

/-- The functions for input and output. -/
def ioProperties : Table Value :=
  .ofList
    [("print", .native .print), ("input", .native .input), ("time", .native .time)]

/-- The functions of one number, in the order in which they are listed. -/
def mathFunctions : List MathFunction :=
  [.abs, .sqrt, .sin, .cos, .tan, .floor, .ceil, .round, .log, .exp]

/-- The constants of mathematics, each the number nearest to it. -/
def mathConstants : List (String × Float) :=
  [("PI", 3.141592653589793), ("E", 2.718281828459045), ("LN2", 0.6931471805599453),
    ("LN10", 2.302585092994046), ("LOG2E", 1.4426950408889634), ("LOG10E", 0.4342944819032518),
    ("SQRT1_2", 0.7071067811865476), ("SQRT2", 1.4142135623730951)]

/-- The functions of mathematics, in the order in which they are listed. -/
def mathNatives : List Native :=
  mathFunctions.map Native.math ++ [.min, .max, .pow, .random]

/-- The functions and constants of mathematics. -/
def mathProperties : Table Value :=
  .ofList
    (mathNatives.map (fun native => (native.name, .native native)) ++
      mathConstants.map fun (name, value) => (name, .number value))

/-- The names of the library and their values, in the order in which they are bound, given its
objects of input and output and of mathematics. -/
def bindings (io math : ObjectRef) : List (String × Value) :=
  ([.length, .int, .float, .string, .exit] : List Native).map
      (fun native => (native.name, Value.native native)) ++
    [("null", .null), ("io", .object io), ("math", .object math)]

/-- Binds names in a scope, as constants. -/
def declareAll (store : Store) (scope : ScopeRef) (bindings : List (String × Value)) : Store :=
  bindings.foldl (fun store (name, value) => store.declare scope name value true) store

/-- Makes the objects of the library and binds its names in a scope. -/
def install (store : Store) (scope : ScopeRef) : Store :=
  let (io, store) := store.newObject ioProperties
  let (math, store) := store.newObject mathProperties
  declareAll store scope (bindings io math)

end Library
end TinyScript
