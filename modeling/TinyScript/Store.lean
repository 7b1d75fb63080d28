import TinyScript.Output
import TinyScript.Table
import TinyScript.Value

/-!
# The store

A store holds every scope, array and object that was ever made, and the output.
Nothing is ever taken out of it, so a reference stays good.  Reading through a
reference that the store does not know finds a scope, array or object without
contents.

Every scope but a root has a parent, which was made before it.  A scope keeps
the whole chain from its parent to the root, so that a name is looked for by
walking a list.
-/

namespace TinyScript

/-- A name's value in one scope, and whether it is protected there. -/
structure Binding where
  value : Value
  /-- A constant is never written by an assignment. -/
  constant : Bool

/-- The names bound between two ends of a block, and the scopes around it. -/
structure Scope where
  /-- The scopes around this one, the nearest first. -/
  ancestors : List ScopeRef
  /-- The names bound here, in the order in which they were. -/
  bindings : Table Binding

/-- The memory of a session. -/
structure Store where
  scopes : Array Scope
  arrays : Array (Array Value)
  objects : Array (Table Value)
  output : Output

namespace Store

/-- The store without contents. -/
def empty : Store :=
  { scopes := #[], arrays := #[], objects := #[], output := {} }

/-! ## Arrays, objects and output -/

/-- The items of an array. -/
def array (store : Store) (ref : ArrayRef) : Array Value :=
  store.arrays[ref.index]?.getD #[]

/-- The properties of an object. -/
def object (store : Store) (ref : ObjectRef) : Table Value :=
  store.objects[ref.index]?.getD .empty

/-- Makes an array. -/
def newArray (store : Store) (items : Array Value) : ArrayRef × Store :=
  (⟨store.arrays.size⟩, { store with arrays := store.arrays.push items })

/-- Makes an object. -/
def newObject (store : Store) (properties : Table Value) : ObjectRef × Store :=
  (⟨store.objects.size⟩, { store with objects := store.objects.push properties })

/-- Changes the items of an array. -/
def modifyArray (store : Store) (ref : ArrayRef) (change : Array Value → Array Value) : Store :=
  { store with arrays := store.arrays.modify ref.index change }

/-- Writes a property of an object. -/
def setProperty (store : Store) (ref : ObjectRef) (key : String) (value : Value) : Store :=
  { store with objects := store.objects.modify ref.index (·.insert key value) }

@[simp] theorem array_newArray (store : Store) (items : Array Value) :
    (store.newArray items).2.array (store.newArray items).1 = items := by
  simp [newArray, array]

@[simp] theorem object_newObject (store : Store) (properties : Table Value) :
    (store.newObject properties).2.object (store.newObject properties).1 = properties := by
  simp [newObject, object]

/-- Making an array changes no array that was there before. -/
theorem array_newArray_of_lt {store : Store} {ref : ArrayRef}
    (known : ref.index < store.arrays.size) (items : Array Value) :
    (store.newArray items).2.array ref = store.array ref := by
  simp [newArray, array, Array.getElem?_push, Nat.ne_of_lt known]

/-- Making an object changes no object that was there before. -/
theorem object_newObject_of_lt {store : Store} {ref : ObjectRef}
    (known : ref.index < store.objects.size) (properties : Table Value) :
    (store.newObject properties).2.object ref = store.object ref := by
  simp [newObject, object, Array.getElem?_push, Nat.ne_of_lt known]

theorem array_modifyArray_self {store : Store} {ref : ArrayRef}
    (known : ref.index < store.arrays.size) (change : Array Value → Array Value) :
    (store.modifyArray ref change).array ref = change (store.array ref) := by
  simp [modifyArray, array, known, Array.getElem_modify]

theorem array_modifyArray_of_ne {ref other : ArrayRef} (differs : other ≠ ref) (store : Store)
    (change : Array Value → Array Value) :
    (store.modifyArray ref change).array other = store.array other := by
  have places : ref.index ≠ other.index := fun same => differs (by
    cases other; cases ref; cases same; rfl)
  simp [modifyArray, array, Array.getElem?_modify, places]

theorem object_setProperty_self {store : Store} {ref : ObjectRef}
    (known : ref.index < store.objects.size) (key : String) (value : Value) :
    (store.setProperty ref key value).object ref = (store.object ref).insert key value := by
  simp [setProperty, object, known, Array.getElem_modify]

theorem object_setProperty_of_ne {ref other : ObjectRef} (differs : other ≠ ref)
    (store : Store) (key : String) (value : Value) :
    (store.setProperty ref key value).object other = store.object other := by
  have places : ref.index ≠ other.index := fun same => differs (by
    cases other; cases ref; cases same; rfl)
  simp [setProperty, object, Array.getElem?_modify, places]

/-- Writes a text to the output. -/
def write (store : Store) (text : String) : Store :=
  { store with output := store.output.write text }

/-- Writes a line to the output. -/
def writeLine (store : Store) (line : String) : Store :=
  { store with output := store.output.writeLine line }

/-! ## Scopes -/

/-- A scope by its reference. -/
def scope (store : Store) (ref : ScopeRef) : Scope :=
  store.scopes[ref.index]?.getD { ancestors := [], bindings := .empty }

/-- A scope and those around it, the nearest first. -/
def chain (store : Store) (ref : ScopeRef) : List ScopeRef :=
  ref :: (store.scope ref).ancestors

/-- Makes a scope that has no parent. -/
def newRoot (store : Store) : ScopeRef × Store :=
  (⟨store.scopes.size⟩,
    { store with scopes := store.scopes.push { ancestors := [], bindings := .empty } })

/-- Makes a scope inside another one. -/
def newChild (store : Store) (parent : ScopeRef) : ScopeRef × Store :=
  (⟨store.scopes.size⟩,
    { store with
      scopes := store.scopes.push { ancestors := store.chain parent, bindings := .empty } })

/-- What a scope itself binds a name to. -/
def binding? (store : Store) (ref : ScopeRef) (name : String) : Option Binding :=
  (store.scope ref).bindings.find? name

/-- The nearest scope of a chain that binds a name. -/
def binder? (store : Store) (ref : ScopeRef) (name : String) : Option ScopeRef :=
  (store.chain ref).find? fun ref => (store.binding? ref name).isSome

/-- The value of a name in the nearest scope of a chain that binds it. -/
def lookup? (store : Store) (ref : ScopeRef) (name : String) : Option Value :=
  (store.chain ref).findSome? fun ref => (store.binding? ref name).map (·.value)

/-- The value of a name, which is undefined where no scope binds it. -/
def lookup (store : Store) (ref : ScopeRef) (name : String) : Value :=
  (store.lookup? ref name).getD .undefined

/-- Whether a scope itself protects a name. -/
def isConstant (store : Store) (ref : ScopeRef) (name : String) : Bool :=
  (store.binding? ref name).any (·.constant)

/-- Changes the names bound in a scope. -/
def modifyBindings (store : Store) (ref : ScopeRef) (change : Table Binding → Table Binding) :
    Store :=
  { store with
    scopes := store.scopes.modify ref.index fun scope =>
      { scope with bindings := change scope.bindings } }

/-- Binds a name in a scope.  A name that is a constant of the scope remains one, also when it
is bound again as a variable. -/
def declare (store : Store) (ref : ScopeRef) (name : String) (value : Value) (constant : Bool) :
    Store :=
  let constant := constant || store.isConstant ref name
  store.modifyBindings ref (·.insert name { value := value, constant := constant })

/-- The binding that a declaration makes. -/
theorem binding?_declare_self {store : Store} {ref : ScopeRef}
    (known : ref.index < store.scopes.size) (name : String) (value : Value) (constant : Bool) :
    (store.declare ref name value constant).binding? ref name =
      some { value := value, constant := constant || store.isConstant ref name } := by
  simp [declare, modifyBindings, binding?, scope, known, Array.getElem_modify]

/-- A declaration leaves the other names of its scope as they are. -/
theorem binding?_declare_of_ne_name {name other : String} (differs : other ≠ name)
    (store : Store) (ref : ScopeRef) (value : Value) (constant : Bool) :
    (store.declare ref name value constant).binding? ref other = store.binding? ref other := by
  by_cases known : ref.index < store.scopes.size
  · simp [declare, modifyBindings, binding?, scope, known, Array.getElem_modify,
      Table.find?_insert_of_ne differs]
  · simp [declare, modifyBindings, binding?, scope, known]

/-- A declaration leaves the other scopes as they are. -/
theorem scope_declare_of_ne {ref other : ScopeRef} (differs : other ≠ ref) (store : Store)
    (name : String) (value : Value) (constant : Bool) :
    (store.declare ref name value constant).scope other = store.scope other := by
  have places : ref.index ≠ other.index := fun same => differs (by
    cases other; cases ref; cases same; rfl)
  simp [declare, modifyBindings, scope, Array.getElem?_modify, places]

/-- A declaration moves no scope to another place in the chain of any. -/
@[simp] theorem chain_declare (store : Store) (ref other : ScopeRef) (name : String)
    (value : Value) (constant : Bool) :
    (store.declare ref name value constant).chain other = store.chain other := by
  simp only [declare, modifyBindings, chain, scope, Array.getElem?_modify]
  split
  · cases store.scopes[other.index]? <;> rfl
  · rfl

/-- Gives a name a new value in the nearest scope that binds it, or binds it in the scope at
hand when none does.  A constant keeps its value. -/
def assign (store : Store) (ref : ScopeRef) (name : String) (value : Value) : Store :=
  match store.binder? ref name with
  | none => store.declare ref name value false
  | some binder =>
    if store.isConstant binder name then store else store.declare binder name value false

end Store
end TinyScript
