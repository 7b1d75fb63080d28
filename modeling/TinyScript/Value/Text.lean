import TinyScript.Number.Text
import TinyScript.Store

/-!
# Values as text

A value is displayed as it is printed.  Inside arrays and objects, and where a
program is debugged, texts stand in quotes.
-/

namespace TinyScript

/-- A function as text: its name and its parameters, those with a default marked. -/
def Function.display (function : Function) : String :=
  (if function.exported then "out " else "") ++
    (match function.name with
      | none => "lambda"
      | some name => "fn " ++ name) ++
    String.join (function.parameters.map fun
      | .required name => " " ++ name
      | .optional name _ => " " ++ name ++ "=(...)") ++
    " \x7b ... \x7d"

namespace Store

/-- The text of a value whose arrays and objects are nested at most so deep; deeper ones are
left out. -/
def renderUpTo (store : Store) : (depth : Nat) → (quoted : Bool) → Value → String
  | _, _, .null => "null"
  | _, _, .undefined => "undef"
  | _, _, .void => ""
  | _, _, .number value => Number.display value
  | _, _, .bool value => if value then "true" else "false"
  | _, quoted, .string value => if quoted then "'" ++ value ++ "'" else value
  | _, _, .function function _ => function.display
  | _, _, .native builtin => "fn " ++ builtin.name
  | _, _, .method _ method => "fn " ++ method.name
  | 0, _, .array _ => "[...]"
  | 0, _, .object _ => "\x7b...\x7d"
  | depth + 1, _, .array ref =>
    "[" ++ ", ".intercalate ((store.array ref).toList.map (store.renderUpTo depth true)) ++ "]"
  | depth + 1, _, .object ref =>
    "\x7b" ++
      ", ".intercalate ((store.object ref).entries.map fun (key, value) =>
        key ++ ": " ++ store.renderUpTo depth true value) ++
      "\x7d"

/-- The arrays and objects that a value is made up of are known, and nested at most so deep. -/
def NestsUpTo (store : Store) : (depth : Nat) → Value → Prop
  | depth + 1, .array ref =>
    ref.index < store.arrays.size ∧
      ∀ item ∈ (store.array ref).toList, store.NestsUpTo depth item
  | depth + 1, .object ref =>
    ref.index < store.objects.size ∧
      ∀ value ∈ (store.object ref).values, store.NestsUpTo depth value
  | 0, .array _ | 0, .object _ => False
  | _, _ => True

instance decidableNestsUpTo (store : Store) :
    (depth : Nat) → (value : Value) → Decidable (store.NestsUpTo depth value)
  | depth + 1, .array ref =>
    have := decidableNestsUpTo store depth
    inferInstanceAs (Decidable (ref.index < store.arrays.size ∧
      ∀ item ∈ (store.array ref).toList, store.NestsUpTo depth item))
  | depth + 1, .object ref =>
    have := decidableNestsUpTo store depth
    inferInstanceAs (Decidable (ref.index < store.objects.size ∧
      ∀ value ∈ (store.object ref).values, store.NestsUpTo depth value))
  | 0, .array _ | 0, .object _ => .isFalse nofun
  | 0, .null | 0, .undefined | 0, .void | 0, .number _ | 0, .bool _ | 0, .string _
  | 0, .function _ _ | 0, .native _ | 0, .method _ _ => .isTrue trivial
  | _ + 1, .null | _ + 1, .undefined | _ + 1, .void | _ + 1, .number _ | _ + 1, .bool _
  | _ + 1, .string _ | _ + 1, .function _ _ | _ + 1, .native _ | _ + 1, .method _ _ =>
    .isTrue trivial

/-- A depth of nesting that only values which contain themselves exceed. -/
def depthLimit (store : Store) : Nat :=
  store.arrays.size + store.objects.size

/-- The depth to which a value is shown.  Of one that contains itself, and so has no complete text,
only the outermost brackets are shown. -/
def textDepth (store : Store) (value : Value) : Nat :=
  if store.NestsUpTo store.depthLimit value then store.depthLimit else 0

/-- The text of a value on its own. -/
def display (store : Store) (value : Value) : String :=
  store.renderUpTo (store.textDepth value) false value

/-- The text of a value inside another one. -/
def repr (store : Store) (value : Value) : String :=
  store.renderUpTo (store.textDepth value) true value

/-- Whether a value counts as true: not nothing, not zero, not empty. -/
def isTruthy (store : Store) : Value → Bool
  | .null | .undefined | .void => false
  | .number value => value != 0.0 && !value.isNaN
  | .bool value => value
  | .string value => !value.isEmpty
  | .array ref => !(store.array ref).isEmpty
  | .object ref => !(store.object ref).entries.isEmpty
  | .function _ _ | .native _ | .method _ _ => true

end Store
end TinyScript
