import TinyScript.Fault
import TinyScript.Number.Read
import TinyScript.Value.Text

/-!
# Operations on values

What operators and member access do, once their operands are known.
-/

namespace TinyScript

/-- An arithmetic operation on two numbers.  Division by zero gives infinity, whatever is
divided and whatever the sign of the zero. -/
def Arithmetic.apply : Arithmetic → Float → Float → Float
  | .add, a, b => a + b
  | .subtract, a, b => a - b
  | .multiply, a, b => a * b
  | .divide, a, b => if b == 0.0 then Number.infinity else a / b
  | .remainder, a, b => Number.remainder a b
  | .power, a, b => Float.pow a b

/-- Whether two numbers are in an order; a number that is none is in no order with any. -/
def Comparison.holds : Comparison → Float → Float → Bool
  | .less, a, b => a < b
  | .lessEqual, a, b => a ≤ b
  | .greater, a, b => b < a
  | .greaterEqual, a, b => b ≤ a

/-- A part of an array or object that can be written. -/
inductive Place
  | item (ref : ArrayRef) (index : Nat)
  | property (ref : ObjectRef) (key : String)
  deriving DecidableEq, Repr

namespace Store

/-- An arithmetic operation on two values: on numbers, or for `+` on a text and anything. -/
def arithmetic (store : Store) (op : Arithmetic) (left right : Value) :
    Except Fault.Cause Value :=
  match left, right with
  | .number a, .number b => .ok (.number (op.apply a b))
  | _, _ =>
    if op = .add ∧ (left.typeTag = .string ∨ right.typeTag = .string) then
      .ok (.string (store.display left ++ store.display right))
    else
      .error (.unsupported left.typeTag op right.typeTag)

/-- What an operator of two operands gives. -/
def binary (store : Store) (op : BinaryOp) (left right : Value) : Except Fault.Cause Value :=
  match op with
  | .arithmetic op => store.arithmetic op left right
  | .equal => .ok (.bool (left.equals right))
  | .notEqual => .ok (.bool (!left.equals right))
  | .comparison op =>
    match left, right with
    | .number a, .number b => .ok (.bool (op.holds a b))
    | _, _ => .error (.incomparable left.typeTag right.typeTag)

/-- What an operator of one operand gives. -/
def unary (store : Store) (op : UnaryOp) (operand : Value) : Except Fault.Cause Value :=
  match op, operand with
  | .not, _ => .ok (.bool (!store.isTruthy operand))
  | .plus, .number value => .ok (.number value)
  | .plus, _ => .error (.unaryPlus operand.typeTag)
  | .minus, .number value => .ok (.number (-value))
  | .minus, _ => .error (.negation operand.typeTag)

/-- The text of a key: a number is the key that its text is. -/
def keyText : Value → Except Fault.Cause String
  | .string text => .ok text
  | .number value => .ok (Number.display value)
  | key => .error (.propertyKey key.typeTag)

/-- The item of an array or the property of an object that a text is the key of. -/
def own? (store : Store) (subject : Value) (key : String) : Option Value :=
  match subject with
  | .array ref => (Number.readIndex? key.toList).bind fun index => (store.array ref)[index]?
  | .object ref => (store.object ref).find? key
  | _ => none

/-- What a value has under a key: its own item or property before the member function that its
type has, and undefined where there is neither. -/
def member (store : Store) (subject key : Value) : Except Fault.Cause Value := do
  let key ← keyText key
  match store.own? subject key with
  | some value => pure value
  | none =>
    match Method.find? subject.typeTag key with
    | some method => pure (.method subject method)
    | none => pure .undefined

/-- The number that a key counts the items of an array by. -/
def indexNumber : Value → Except Fault.Cause Float
  | .number value => .ok value
  | .string text =>
    match Number.read? text.toList with
    | some value => .ok value
    | none => .error (.indexText text)
  | key => .error (.indexType key.typeTag)

/-- The place that an assignment to a member writes: an item of an array that is there already,
or any property of an object. -/
def place (store : Store) (subject key : Value) : Except Fault.Cause Place :=
  match subject with
  | .object ref => do
    pure (.property ref (← keyText key))
  | .array ref => do
    let number ← indexNumber key
    let length := (store.array ref).size
    match Number.index? number with
    | some index =>
      if index < length then pure (.item ref index) else throw (.indexRange number length)
    | none => throw (.indexRange number length)
  | _ => .error (.noProperties subject.typeTag)

/-- Writes a value at a place. -/
def put (store : Store) (value : Value) : Place → Store
  | .item ref index => store.modifyArray ref (·.setIfInBounds index value)
  | .property ref key => store.setProperty ref key value

end Store
end TinyScript
