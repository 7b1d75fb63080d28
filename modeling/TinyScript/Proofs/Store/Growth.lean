import TinyScript.Session

/-!
# Growth of a store

Scopes are only ever added to a store, and the scopes around a scope stay the same.
-/

namespace TinyScript
namespace Store

/-- A store has the scopes of another one, at the same places in their chains. -/
structure Extends (later store : Store) : Prop where
  size : store.scopes.size ≤ later.scopes.size
  ancestors : ∀ ref : ScopeRef, ref.index < store.scopes.size →
    (later.scope ref).ancestors = (store.scope ref).ancestors

variable {store later : Store}

/-- Stores with the same scopes extend each other. -/
theorem extends_of_scopes_eq
    (same : later.scopes = store.scopes) :
    later.Extends store where
  size := Nat.le_of_eq (by rw [same])
  ancestors ref _ := by simp only [scope, same]

theorem Extends.refl
    (store : Store) :
    store.Extends store :=
  extends_of_scopes_eq rfl

/-- What extends a store that extends another one extends that as well. -/
theorem Extends.trans
    {latest : Store}
    (second : latest.Extends later)
    (first : later.Extends store) :
    latest.Extends store where
  size := Nat.le_trans first.size second.size
  ancestors ref known := by
    rw [second.ancestors ref (Nat.lt_of_lt_of_le known first.size), first.ancestors ref known]

/-- What is known stays known. -/
theorem Extends.known
    (grown : later.Extends store)
    {ref : ScopeRef}
    (known : ref.index < store.scopes.size) :
    ref.index < later.scopes.size :=
  Nat.lt_of_lt_of_le known grown.size

/-- Changes to the bindings of a scope leave the chains as they are. -/
theorem extends_modifyBindings
    (store : Store)
    (ref : ScopeRef)
    (edit : Table Binding → Table Binding) :
    (store.modifyBindings ref edit).Extends store where
  size := by simp [modifyBindings]
  ancestors other _ := by
    simp only [scope, modifyBindings, Array.getElem?_modify]
    split
    · cases store.scopes[other.index]? <;> rfl
    · rfl

/-- Declarations make no scope. -/
@[simp] theorem size_declare
    (store : Store)
    (ref : ScopeRef)
    (name : String)
    (value : Value)
    (constant : Bool) :
    (store.declare ref name value constant).scopes.size = store.scopes.size := by
  simp [declare, modifyBindings]

/-- Assignments make no scope. -/
@[simp] theorem size_assign
    (store : Store)
    (ref : ScopeRef)
    (name : String)
    (value : Value) :
    (store.assign ref name value).scopes.size = store.scopes.size := by
  unfold assign
  split
  · exact store.size_declare ref name value false
  · split
    · rfl
    · exact store.size_declare _ name value false

/-- A new scope is one more. -/
@[simp] theorem size_newChild
    (store : Store)
    (parent : ScopeRef) :
    (store.newChild parent).2.scopes.size = store.scopes.size + 1 := by
  simp [newChild]

/-- What every declaration in a scope preserves, the arguments that are bound there preserve. -/
theorem bindArguments_preserves
    {P : Store → Prop}
    {ref : ScopeRef}
    (declares : ∀ store name value, P store → P (store.declare ref name value false))
    {store : Store}
    (start : P store)
    (parameters : List Parameter)
    (arguments : List Value) :
    P (Machine.bindArguments store ref parameters arguments) := by
  induction parameters generalizing store arguments with
  | nil => cases arguments <;> exact start
  | cons parameter parameters ih =>
    cases arguments with
    | nil => exact start
    | cons argument arguments => exact ih (declares store parameter.name argument start) arguments

/-- Binding the arguments of a call makes no scope. -/
@[simp] theorem size_bindArguments
    (store : Store)
    (ref : ScopeRef)
    (parameters : List Parameter)
    (arguments : List Value) :
    (Machine.bindArguments store ref parameters arguments).scopes.size = store.scopes.size :=
  bindArguments_preserves (P := fun later => later.scopes.size = store.scopes.size)
    (fun later name value same => (later.size_declare ref name value false).trans same) rfl
    parameters arguments

/-- A declaration leaves the chains of scopes as they are. -/
theorem extends_declare
    (store : Store)
    (ref : ScopeRef)
    (name : String)
    (value : Value)
    (constant : Bool) :
    (store.declare ref name value constant).Extends store :=
  store.extends_modifyBindings ref
    (·.insert name { value := value, constant := constant || store.isConstant ref name })

/-- An assignment leaves the chains of scopes as they are. -/
theorem extends_assign
    (store : Store)
    (ref : ScopeRef)
    (name : String)
    (value : Value) :
    (store.assign ref name value).Extends store := by
  unfold assign
  split
  · exact store.extends_declare ref name value false
  · split
    · exact .refl store
    · exact store.extends_declare _ name value false

/-- A new scope without a parent leaves the chains of the others as they are. -/
theorem extends_newRoot
    (store : Store) :
    store.newRoot.2.Extends store where
  size := by simp [newRoot]
  ancestors ref known := by
    simp [scope, newRoot, Array.getElem?_push, Nat.ne_of_lt known]

/-- A new scope inside another one leaves the chains of the others as they are. -/
theorem extends_newChild
    (store : Store)
    (parent : ScopeRef) :
    (store.newChild parent).2.Extends store where
  size := by simp [newChild]
  ancestors ref known := by
    simp [scope, newChild, Array.getElem?_push, Nat.ne_of_lt known]

/-- A new scope lies inside its parent. -/
@[simp] theorem ancestors_newChild
    (store : Store)
    (parent : ScopeRef) :
    ((store.newChild parent).2.scope (store.newChild parent).1).ancestors =
      store.chain parent := by
  simp [scope, newChild]

/-- A new scope is in the store that it was made in. -/
theorem newChild_known
    (store : Store)
    (parent : ScopeRef) :
    (store.newChild parent).1.index < (store.newChild parent).2.scopes.size := by
  simp [newChild]

/-- Binding the arguments of a call leaves the chains of scopes as they are. -/
theorem extends_bindArguments
    (store : Store)
    (ref : ScopeRef)
    (parameters : List Parameter)
    (arguments : List Value) :
    (Machine.bindArguments store ref parameters arguments).Extends store :=
  bindArguments_preserves (P := (·.Extends store))
    (fun later name value grown => (later.extends_declare ref name value false).trans grown)
    (.refl store) parameters arguments

end Store
end TinyScript
