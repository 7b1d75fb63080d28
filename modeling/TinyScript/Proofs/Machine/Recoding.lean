import TinyScript.Proofs.Store.Disguise
import TinyScript.Proofs.Syntax.Recoding

/-!
# Recoded machines

Functions keep the code that they were written as, so code is in values, in the store and in
every part of a machine.  Here each of them is given with its code recoded.
-/

namespace TinyScript

/-! ## Values and stores -/

/-- A recoded function. -/
def Function.recode (recoding : Recoding) (function : Function) : Function :=
  { function with
    parameters := function.parameters.map (Parameter.recode recoding)
    body := Stmt.recodeBody recoding function.body }

/-- A value whose functions are recoded. -/
def Value.recode (recoding : Recoding) : Value → Value
  | .null => .null
  | .undefined => .undefined
  | .void => .void
  | .number value => .number value
  | .bool value => .bool value
  | .string value => .string value
  | .array ref => .array ref
  | .object ref => .object ref
  | .function code scope => .function (code.recode recoding) scope
  | .native builtin => .native builtin
  | .method receiver member => .method (receiver.recode recoding) member

/-- A binding whose functions are recoded. -/
def Binding.recode (recoding : Recoding) (binding : Binding) : Binding :=
  { binding with value := binding.value.recode recoding }

/-- A scope whose functions are recoded. -/
def Scope.recode (recoding : Recoding) (scope : Scope) : Scope :=
  { scope with bindings := scope.bindings.map (Binding.recode recoding) }

/-- A store whose functions are recoded. -/
def Store.recode (recoding : Recoding) (store : Store) : Store :=
  { store with
    scopes := store.scopes.map (Scope.recode recoding)
    arrays := store.arrays.map (Array.map (Value.recode recoding))
    objects := store.objects.map (Table.map (Value.recode recoding)) }

/-! ## Machines -/

/-- A fault in recoded code. -/
def Fault.recode (recoding : Recoding) (fault : Fault) : Fault :=
  { fault with position := fault.position.map recoding.move }

/-- A question about recoded functions. -/
def Request.recode (recoding : Recoding) : Request → Request
  | .readLine => .readLine
  | .clock => .clock
  | .random => .random
  | .host name arguments scope => .host name (arguments.map (Value.recode recoding)) scope

/-- An action with recoded functions. -/
def Action.recode (recoding : Recoding) : Action → Action
  | .yield value => .yield (value.recode recoding)
  | .make items => .make (items.map (Value.recode recoding))
  | .push ref items => .push ref (items.map (Value.recode recoding))
  | .pop ref last => .pop ref (last.recode recoding)
  | .print line => .print line
  | .ask prompt request => .ask prompt (request.recode recoding)
  | .apply callee arguments =>
    .apply (callee.recode recoding) (arguments.map (Value.recode recoding))
  | .exit status => .exit status

/-- A call of a recoded function. -/
def Activation.recode (recoding : Recoding) (call : Activation) : Activation :=
  { call with body := Stmt.recodeBody recoding call.body }

/-- A recoded loop. -/
def Loop.recode (recoding : Recoding) (loop : Loop) : Loop :=
  { loop with
    test := loop.test.recode recoding
    update := loop.update.recode recoding
    body := Stmt.recodeBody recoding loop.body }

/-- A frame whose code is recoded. -/
def Frame.recode (recoding : Recoding) : Frame → Frame
  | .items done rest =>
    .items (done.map (Value.recode recoding)) (rest.map (Expr.recode recoding))
  | .fields done name rest =>
    .fields (done.map (Value.recode recoding)) name (rest.map (Field.recode recoding))
  | .right position op operand => .right (recoding.move position) op (operand.recode recoding)
  | .binary position op left => .binary (recoding.move position) op (left.recode recoding)
  | .logical op operand => .logical op (operand.recode recoding)
  | .unary position op => .unary (recoding.move position) op
  | .assignName name => .assignName name
  | .assignMember position name value =>
    .assignMember (recoding.move position) name (value.recode recoding)
  | .assignIndex position subscript value =>
    .assignIndex (recoding.move position) (subscript.recode recoding) (value.recode recoding)
  | .assignKey position subject value =>
    .assignKey (recoding.move position) (subject.recode recoding) (value.recode recoding)
  | .assignValue position subject subscript =>
    .assignValue (recoding.move position) (subject.recode recoding) (subscript.recode recoding)
  | .declare flavour name => .declare flavour name
  | .callee position given =>
    .callee (recoding.move position) (given.map (Expr.recode recoding))
  | .arguments position value done rest =>
    .arguments (recoding.move position) (value.recode recoding) (done.map (Value.recode recoding))
      (rest.map (Expr.recode recoding))
  | .member position name => .member (recoding.move position) name
  | .index position subscript => .index (recoding.move position) (subscript.recode recoding)
  | .key position subject => .key (recoding.move position) (subject.recode recoding)
  | .ternary consequent alternate =>
    .ternary (consequent.recode recoding) (alternate.recode recoding)
  | .typeof => .typeof
  | .branch consequent alternate =>
    .branch (Stmt.recodeBody recoding consequent) (Stmt.recodeBody recoding alternate)
  | .whileTest test body last =>
    .whileTest (test.recode recoding) (Stmt.recodeBody recoding body) (last.recode recoding)
  | .whileBody test body =>
    .whileBody (test.recode recoding) (Stmt.recodeBody recoding body)
  | .forStart loop => .forStart (loop.recode recoding)
  | .forTest loop last => .forTest (loop.recode recoding) (last.recode recoding)
  | .forBody loop => .forBody (loop.recode recoding)
  | .forUpdate loop last => .forUpdate (loop.recode recoding) (last.recode recoding)
  | .returnValue => .returnValue
  | .debug done rest => .debug done (rest.map (Expr.recode recoding))
  | .sequence rest => .sequence (Stmt.recodeBody recoding rest)
  | .parameter begun name rest =>
    .parameter (begun.recode recoding) name (rest.map (Parameter.recode recoding))
  | .call caller => .call caller

/-- Work on recoded code. -/
def Control.recode (recoding : Recoding) : Control → Control
  | .evaluate expr => .evaluate (expr.recode recoding)
  | .execute stmt => .execute (stmt.recode recoding)
  | .run body => .run (Stmt.recodeBody recoding body)
  | .give value => .give (value.recode recoding)
  | .unwind value => .unwind (value.recode recoding)
  | .apply callee arguments position =>
    .apply (callee.recode recoding) (arguments.map (Value.recode recoding))
      (position.map recoding.move)
  | .bind call parameters =>
    .bind (call.recode recoding) (parameters.map (Parameter.recode recoding))
  | .await request position => .await (request.recode recoding) (position.map recoding.move)
  | .failed fault => .failed (fault.recode recoding)
  | .exited status => .exited status

/-- A machine whose code is recoded. -/
def Machine.recode (recoding : Recoding) (m : Machine) : Machine :=
  { control := m.control.recode recoding
    scope := m.scope
    stack := m.stack.map (Frame.recode recoding)
    store := m.store.recode recoding }

/-- An outcome of recoded code. -/
def Outcome.recode (recoding : Recoding) : Outcome → Outcome
  | .completed value => .completed (value.recode recoding)
  | .failed fault => .failed (fault.recode recoding)
  | .exited status => .exited status

end TinyScript
