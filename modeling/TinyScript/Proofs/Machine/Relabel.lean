import TinyScript.Proofs.Machine.Recoding

/-!
# Machines at other places

Functions keep the positions of the code that they were written as, so positions
are in values, in the store and in every part of a machine.  Here each of them is
given with its positions changed, and nothing else.
-/

namespace TinyScript

/-! ## Values and stores -/

/-- A function with its positions changed. -/
def Function.relabel (change : Position → Position) (function : Function) : Function :=
  { function with
    parameters := function.parameters.map (Parameter.relabel change)
    body := function.body.map (Stmt.relabel change) }

/-- A value with its positions changed. -/
def Value.relabel (change : Position → Position) : Value → Value
  | .null => .null
  | .undefined => .undefined
  | .void => .void
  | .number value => .number value
  | .bool value => .bool value
  | .string value => .string value
  | .array ref => .array ref
  | .object ref => .object ref
  | .function code scope => .function (code.relabel change) scope
  | .native builtin => .native builtin
  | .method receiver member => .method (receiver.relabel change) member

/-- A binding with its positions changed. -/
def Binding.relabel (change : Position → Position) (binding : Binding) : Binding :=
  { binding with value := binding.value.relabel change }

/-- A scope with its positions changed. -/
def Scope.relabel (change : Position → Position) (scope : Scope) : Scope :=
  { scope with bindings := scope.bindings.map (Binding.relabel change) }

/-- A store with its positions changed. -/
def Store.relabel (change : Position → Position) (store : Store) : Store :=
  { store with
    scopes := store.scopes.map (Scope.relabel change)
    arrays := store.arrays.map (Array.map (Value.relabel change))
    objects := store.objects.map (Table.map (Value.relabel change)) }

/-! ## Machines -/

/-- A fault with its position changed. -/
def Fault.relabel (change : Position → Position) (fault : Fault) : Fault :=
  { fault with position := fault.position.map change }

/-- A question with its positions changed. -/
def Request.relabel (change : Position → Position) : Request → Request
  | .readLine => .readLine
  | .clock => .clock
  | .random => .random
  | .host name arguments scope => .host name (arguments.map (Value.relabel change)) scope

/-- A call with its positions changed. -/
def Activation.relabel (change : Position → Position) (call : Activation) : Activation :=
  { call with body := call.body.map (Stmt.relabel change) }

/-- A loop with its positions changed. -/
def Loop.relabel (change : Position → Position) (loop : Loop) : Loop :=
  { loop with
    test := loop.test.relabel change
    update := loop.update.relabel change
    body := loop.body.map (Stmt.relabel change) }

/-- A frame with its positions changed. -/
def Frame.relabel (change : Position → Position) : Frame → Frame
  | .items done rest =>
    .items (done.map (Value.relabel change)) (rest.map (Expr.relabel change))
  | .fields done name rest =>
    .fields (done.map (Value.relabel change)) name (rest.map (Field.relabel change))
  | .right position op operand => .right (change position) op (operand.relabel change)
  | .binary position op left => .binary (change position) op (left.relabel change)
  | .logical op operand => .logical op (operand.relabel change)
  | .unary position op => .unary (change position) op
  | .assignName name => .assignName name
  | .assignMember position name value =>
    .assignMember (change position) name (value.relabel change)
  | .assignIndex position subscript value =>
    .assignIndex (change position) (subscript.relabel change) (value.relabel change)
  | .assignKey position subject value =>
    .assignKey (change position) (subject.relabel change) (value.relabel change)
  | .assignValue position subject subscript =>
    .assignValue (change position) (subject.relabel change) (subscript.relabel change)
  | .declare flavour name => .declare flavour name
  | .callee position given =>
    .callee (change position) (given.map (Expr.relabel change))
  | .arguments position value done rest =>
    .arguments (change position) (value.relabel change) (done.map (Value.relabel change))
      (rest.map (Expr.relabel change))
  | .member position name => .member (change position) name
  | .index position subscript => .index (change position) (subscript.relabel change)
  | .key position subject => .key (change position) (subject.relabel change)
  | .ternary consequent alternate =>
    .ternary (consequent.relabel change) (alternate.relabel change)
  | .typeof => .typeof
  | .branch consequent alternate =>
    .branch (consequent.map (Stmt.relabel change)) (alternate.map (Stmt.relabel change))
  | .whileTest test body last =>
    .whileTest (test.relabel change) (body.map (Stmt.relabel change)) (last.relabel change)
  | .whileBody test body =>
    .whileBody (test.relabel change) (body.map (Stmt.relabel change))
  | .forStart loop => .forStart (loop.relabel change)
  | .forTest loop last => .forTest (loop.relabel change) (last.relabel change)
  | .forBody loop => .forBody (loop.relabel change)
  | .forUpdate loop last => .forUpdate (loop.relabel change) (last.relabel change)
  | .returnValue => .returnValue
  | .debug done rest => .debug done (rest.map (Expr.relabel change))
  | .sequence rest => .sequence (rest.map (Stmt.relabel change))
  | .parameter begun name rest =>
    .parameter (begun.relabel change) name (rest.map (Parameter.relabel change))
  | .call caller => .call caller

/-- The work of a machine with its positions changed. -/
def Control.relabel (change : Position → Position) : Control → Control
  | .evaluate expr => .evaluate (expr.relabel change)
  | .execute stmt => .execute (stmt.relabel change)
  | .run body => .run (body.map (Stmt.relabel change))
  | .give value => .give (value.relabel change)
  | .unwind value => .unwind (value.relabel change)
  | .apply callee arguments position =>
    .apply (callee.relabel change) (arguments.map (Value.relabel change)) (position.map change)
  | .bind call parameters =>
    .bind (call.relabel change) (parameters.map (Parameter.relabel change))
  | .await request position => .await (request.relabel change) (position.map change)
  | .failed fault => .failed (fault.relabel change)
  | .exited status => .exited status

/-- A machine with its positions changed. -/
def Machine.relabel (change : Position → Position) (m : Machine) : Machine :=
  { control := m.control.relabel change
    scope := m.scope
    stack := m.stack.map (Frame.relabel change)
    store := m.store.relabel change }

/-- An outcome with its positions changed. -/
def Outcome.relabel (change : Position → Position) : Outcome → Outcome
  | .completed value => .completed (value.relabel change)
  | .failed fault => .failed (fault.relabel change)
  | .exited status => .exited status

/-! ## Changing positions twice -/

section Twice

variable (first second : Position → Position)

/-- Two changes of the values of a table can be made at once. -/
theorem Table.map_map
    {α β γ : Type}
    (first : α → β)
    (second : β → γ)
    (table : Table α) :
    (table.map first).map second = table.map (second ∘ first) := by
  simp [Table.map]

/-- A change that changes no value changes no table. -/
theorem Table.map_eq_self
    {α : Type}
    {change : α → α}
    (each : ∀ value, change value = value)
    (table : Table α) :
    table.map change = table := by
  simp [Table.map, each]

@[simp] theorem Function.relabel_relabel
    (function : Function) :
    (function.relabel first).relabel second = function.relabel (second ∘ first) := by
  simp [Function.relabel]

@[simp] theorem Function.relabel_id
    (function : Function) :
    function.relabel id = function := by
  simp [Function.relabel, map_eq_self]

/-- Positions can be moved twice at once. -/
@[simp] theorem Value.relabel_relabel
    (value : Value) :
    (value.relabel first).relabel second = value.relabel (second ∘ first) := by
  induction value with
  | method receiver method ih => simp only [Value.relabel, ih]
  | function function scope => simp only [Value.relabel, Function.relabel_relabel]
  | _ => rfl

/-- A value whose positions stay is the same. -/
@[simp] theorem Value.relabel_id
    (value : Value) :
    value.relabel id = value := by
  induction value with
  | method receiver method ih => simp only [Value.relabel, ih]
  | function function scope => simp only [Value.relabel, Function.relabel_id]
  | _ => rfl

theorem Scope.relabel_relabel
    (scope : Scope) :
    (scope.relabel first).relabel second = scope.relabel (second ∘ first) := by
  have bindings :
      Binding.relabel second ∘ Binding.relabel first = Binding.relabel (second ∘ first) := by
    funext binding
    simp [Binding.relabel]
  simp only [Scope.relabel, Table.map_map, bindings]

theorem Scope.relabel_id
    (scope : Scope) :
    scope.relabel id = scope := by
  have each : ∀ binding : Binding, binding.relabel id = binding := by
    intro binding
    simp [Binding.relabel]
  simp only [Scope.relabel, Table.map_eq_self each]

/-- All positions of a store can be moved twice at once. -/
@[simp] theorem Store.relabel_relabel
    (store : Store) :
    (store.relabel first).relabel second = store.relabel (second ∘ first) := by
  have values : Value.relabel second ∘ Value.relabel first = Value.relabel (second ∘ first) :=
    funext (Value.relabel_relabel first second)
  simp [Store.relabel, Scope.relabel_relabel, Table.map_map, values]

/-- A store whose positions stay is the same. -/
@[simp] theorem Store.relabel_id
    (store : Store) :
    store.relabel id = store := by
  have scopes : Scope.relabel id = id := funext Scope.relabel_id
  have values : Value.relabel id = id := funext Value.relabel_id
  have objects : Table.map (Value.relabel id) = id :=
    funext (Table.map_eq_self Value.relabel_id)
  have arrays : Array.map (Value.relabel id) = id := by
    funext items
    rw [values, Array.map_id]
    rfl
  simp [Store.relabel, scopes, arrays, objects]

end Twice
end TinyScript
