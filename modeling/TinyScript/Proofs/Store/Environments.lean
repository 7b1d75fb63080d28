import TinyScript.Proofs.Store.Assignment
import TinyScript.Proofs.Store.Disguise

/-!
# Scopes with two tables

A scope may keep the names that it binds and those that it protects apart from each other, and know
no more than its parent of the scopes around it.  Then whoever assigns to a name walks from parent
to parent, and at every scope asks first whether it protects the name and then whether it binds it.
Every store has such scopes (`exists_represents`), and they and those of the
store, which keep the mark of a constant with its value and all the scopes around them, are the same
as long as the same is done to both (`Grown.represents`): names are found alike
(`Grown.resolve_eq`), and no scope protects a name that it does not bind.
-/

namespace TinyScript

/-! ## Environments -/

/-- A scope with the names that it binds, those that it protects, and its parent. -/
structure Environment where
  parent : Option ScopeRef
  /-- The names bound here with their values, in the order in which they were first bound. -/
  bindings : Table Value
  /-- The names that are constants here. -/
  constants : List String

namespace Environment

/-- The scope without names inside another one, or inside none. -/
def inside (parent : Option ScopeRef) : Environment :=
  { parent := parent, bindings := .empty, constants := [] }

/-- Gives a name a value, which does not touch the constants. -/
def write (environment : Environment) (name : String) (value : Value) : Environment :=
  { environment with bindings := environment.bindings.insert name value }

/-- Binds a name.  A constant marker, once set, is never cleared. -/
def declare (environment : Environment) (name : String) (value : Value) (constant : Bool) :
    Environment :=
  let environment :=
    if constant then { environment with constants := name :: environment.constants }
    else environment
  environment.write name value

end Environment

/-- All scopes that were ever made. -/
abbrev Environments :=
  Array Environment

namespace Environments

variable (environments : Environments)

/-- A scope by its reference. -/
def environment (ref : ScopeRef) : Environment :=
  environments[ref.index]?.getD (.inside none)

/-- Binds a name in a scope. -/
def declare (ref : ScopeRef) (name : String) (value : Value) (constant : Bool) : Environments :=
  environments.modify ref.index (·.declare name value constant)

/-- Gives a name a value in a scope. -/
def write (ref : ScopeRef) (name : String) (value : Value) : Environments :=
  environments.modify ref.index (·.write name value)

/-- Walks from a scope on to its parents, at most so many steps.  The first scope that protects the
name or binds it decides; behind the last one the name is bound in the scope at hand. -/
def assignFrom (origin : ScopeRef) (name : String) (value : Value) :
    (steps : Nat) → Option ScopeRef → Environments
  | steps + 1, some ref =>
    let here := environments.environment ref
    if name ∈ here.constants then environments
    else if here.bindings.contains name then environments.write ref name value
    else assignFrom origin name value steps here.parent
  | _, _ => environments.write origin name value

/-- Gives a name a new value in the nearest scope that binds it, or binds it in the scope at hand
when none does.  Writes to a constant are dropped. -/
def assign (ref : ScopeRef) (name : String) (value : Value) : Environments :=
  environments.assignFrom ref name value environments.size (some ref)

/-- Walks from a scope on to its parents, at most so many steps, until a scope binds the name. -/
def resolveFrom (name : String) : (steps : Nat) → Option ScopeRef → Option Value
  | steps + 1, some ref =>
    let here := environments.environment ref
    match here.bindings.find? name with
    | some value => some value
    | none => resolveFrom name steps here.parent
  | _, _ => none

/-- The value of a name in the nearest scope that binds it. -/
def resolve (ref : ScopeRef) (name : String) : Option Value :=
  environments.resolveFrom name environments.size (some ref)

end Environments

/-! ## Scopes that are represented -/

/-- An environment has the parent, the names with their values and the constants of a scope. -/
structure Environment.Represents (environment : Environment) (scope : Scope) : Prop where
  parent : environment.parent = scope.ancestors.head?
  bindings : environment.bindings = scope.bindings.map (·.value)
  constants : ∀ name,
    name ∈ environment.constants ↔ (scope.bindings.find? name).any (·.constant) = true

namespace Environment

/-- A scope taken apart, with its constants beside its names. -/
def ofScope (scope : Scope) : Environment where
  parent := scope.ancestors.head?
  bindings := scope.bindings.map (·.value)
  constants := scope.bindings.keys.filter fun name =>
    (scope.bindings.find? name).any (·.constant)

theorem represents_ofScope
    (scope : Scope) :
    (ofScope scope).Represents scope where
  parent := rfl
  bindings := rfl
  constants name := by
    rw [ofScope, List.mem_filter, and_iff_right_of_imp]
    intro constant
    rw [← Table.contains_iff_mem_keys, Table.contains]
    exact Option.isSome_of_any constant

end Environment

namespace Environment.Represents

variable {environment : Environment} {scope : Scope} {name : String}
  (represents : environment.Represents scope)

include represents

/-- A name has the value that the scope binds it to. -/
theorem find?_bindings
    (name : String) :
    environment.bindings.find? name = (scope.bindings.find? name).map (·.value) := by
  rw [represents.bindings, Table.find?_map]

/-- The same names are bound. -/
theorem contains_bindings
    (name : String) :
    environment.bindings.contains name = (scope.bindings.find? name).isSome := by
  rw [Table.contains, represents.find?_bindings, Option.isSome_map]

/-- A declaration keeps the mark of a constant with the value, or apart from it. -/
theorem declare
    (name : String)
    (value : Value)
    (constant : Bool) :
    (environment.declare name value constant).Represents
      { scope with
        bindings := scope.bindings.insert name
          { value := value
            constant := constant || (scope.bindings.find? name).any (·.constant) } } where
  parent := by
    rw [Environment.declare, Environment.write]
    cases constant <;> exact represents.parent
  bindings := by
    rw [← Table.insert_map, ← represents.bindings, Environment.declare, Environment.write]
    cases constant <;> rfl
  constants other := by
    have before := represents.constants other
    by_cases same : other = name
    · subst same
      cases constant <;> simp [Environment.declare, Environment.write, before]
    · rw [Table.find?_insert_of_ne same, ← before]
      cases constant <;> simp [Environment.declare, Environment.write, same]

end Environment.Represents

namespace Environments

/-- Environments have the same scopes as a store. -/
structure Represents (environments : Environments) (store : Store) : Prop where
  size : environments.size = store.scopes.size
  scope : ∀ ref, (environments.environment ref).Represents (store.scope ref)

variable {environments : Environments} {store : Store} {ref : ScopeRef} {name : String}

/-- A new environment is found behind all others. -/
theorem environment_push
    (last : Environment)
    (ref : ScopeRef) :
    environment (environments.push last) ref =
      if ref.index = environments.size then last else environments.environment ref := by
  simp only [environment, Array.getElem?_push]
  split <;> rfl

/-- An edit changes one environment. -/
theorem environment_modify
    (known : ref.index < environments.size)
    (edit : Environment → Environment)
    (other : ScopeRef) :
    environment (environments.modify ref.index edit) other =
      if other = ref then edit (environments.environment other)
      else environments.environment other := by
  obtain ⟨index⟩ := ref
  obtain ⟨place⟩ := other
  simp only [environment, Array.getElem?_modify, ScopeRef.mk.injEq]
  by_cases same : index = place
  · subst same
    simp [show index < environments.size from known]
  · rw [if_neg same, if_neg (Ne.symm same)]

namespace Represents

variable (represents : environments.Represents store)

include represents

/-- A name is among the constants of an environment just when its scope protects it. -/
theorem mem_constants_iff :
    name ∈ (environments.environment ref).constants ↔ store.isConstant ref name = true :=
  (represents.scope ref).constants name

/-- A new scope without a parent is represented by a new environment. -/
theorem newRoot :
    Represents (environments.push (.inside none)) store.newRoot.2 where
  size := by simp [Store.newRoot, represents.size]
  scope ref := by
    have found : store.newRoot.2.scope ref =
        if ref.index = store.scopes.size then { ancestors := [], bindings := .empty }
        else store.scope ref := by
      simp only [Store.scope, Store.newRoot, Array.getElem?_push]
      split <;> rfl
    rw [environment_push, found, represents.size]
    split
    · exact ⟨rfl, rfl, fun name => by simp [Environment.inside]⟩
    · exact represents.scope ref

/-- A new scope inside another one is represented by an environment that knows only the parent. -/
theorem newChild
    (parent : ScopeRef) :
    Represents (environments.push (.inside (some parent))) (store.newChild parent).2 where
  size := by simp [represents.size]
  scope ref := by
    have found : (store.newChild parent).2.scope ref =
        if ref.index = store.scopes.size then
          { ancestors := store.chain parent, bindings := .empty }
        else store.scope ref := by
      simp only [Store.scope, Store.newChild, Array.getElem?_push]
      split <;> rfl
    rw [environment_push, found, represents.size]
    split
    · exact ⟨rfl, rfl, fun name => by simp [Environment.inside]⟩
    · exact represents.scope ref

/-- A declaration in a scope is represented by one in the environment. -/
theorem declare
    (known : ref.index < store.scopes.size)
    (name : String)
    (value : Value)
    (constant : Bool) :
    Represents (environments.declare ref name value constant)
      (store.declare ref name value constant) where
  size := by
    rw [Store.size_declare, ← represents.size]
    exact Array.size_modify
  scope other := by
    rw [Environments.declare, environment_modify (represents.size ▸ known)]
    by_cases same : other = ref
    · subst same
      have declared : (store.declare other name value constant).scope other =
          { store.scope other with
            bindings := (store.scope other).bindings.insert name
              { value := value, constant := constant || store.isConstant other name } } := by
        simp [Store.declare, Store.modifyBindings, Store.scope, known, Array.getElem_modify]
      rw [if_pos rfl, declared]
      exact (represents.scope other).declare name value constant
    · rw [if_neg same, Store.scope_declare_of_ne same]
      exact represents.scope other

/-! ## Walks -/

section Walks

variable (forest : store.Forest)

include forest

/-- The walk of an assignment stops where the chain of a scope has the first one that binds the
name. -/
theorem assignFrom_eq
    (origin : ScopeRef)
    (value : Value)
    {steps : Nat}
    (near : ref.index < steps) :
    environments.assignFrom origin name value steps (some ref) =
      match store.binder? ref name with
      | none => environments.write origin name value
      | some binder =>
        if store.isConstant binder name then environments
        else environments.write binder name value := by
  induction steps generalizing ref with
  | zero => exact absurd near (Nat.not_lt_zero _)
  | succ steps ih =>
    have here := represents.scope ref
    simp only [assignFrom, represents.mem_constants_iff, here.contains_bindings]
    cases bound : store.binding? ref name with
    | some binding =>
      have first : store.binder? ref name = some ref := by simp [Store.binder?, Store.chain, bound]
      have contains : ((store.scope ref).bindings.find? name).isSome = true := by
        rw [← Store.binding?, bound]
        rfl
      rw [first, if_pos contains]
    | none =>
      have notConstant : store.isConstant ref name = false := by simp [Store.isConstant, bound]
      have absent : ((store.scope ref).bindings.find? name).isSome = false := by
        rw [← Store.binding?, bound]
        rfl
      simp only [notConstant, absent, Bool.false_eq_true, if_false, here.parent]
      cases inside : store.parent? ref with
      | none =>
        have none : store.binder? ref name = none := by
          simp [Store.binder?, Store.chain_of_parent?_eq_none inside, bound]
        rw [← Store.parent?, inside, none]
        cases steps <;> rfl
      | some parent =>
        have less := (forest ref parent inside).1
        rw [← Store.parent?, inside, forest.binder?_of_unbound inside bound]
        exact ih (Nat.lt_of_lt_of_le less (Nat.le_of_lt_succ near))

/-- The walk for a name finds what the chain of a scope has for it. -/
theorem resolveFrom_eq
    {steps : Nat}
    (near : ref.index < steps) :
    environments.resolveFrom name steps (some ref) = store.lookup? ref name := by
  induction steps generalizing ref with
  | zero => exact absurd near (Nat.not_lt_zero _)
  | succ steps ih =>
    have here := represents.scope ref
    simp only [resolveFrom, here.find?_bindings]
    rw [← Store.binding?]
    cases bound : store.binding? ref name with
    | some binding => simp [Store.lookup?, Store.chain, bound]
    | none =>
      simp only [Option.map_none, here.parent]
      cases inside : store.parent? ref with
      | none =>
        rw [← Store.parent?, inside, Store.lookup?, Store.chain_of_parent?_eq_none inside]
        cases steps <;> simp [resolveFrom, bound]
      | some parent =>
        have same : store.lookup? ref name = store.lookup? parent name := by
          rw [Store.lookup?, forest.chain_eq_cons inside, List.findSome?_cons, bound, Store.lookup?]
          rfl
        have less := (forest ref parent inside).1
        rw [← Store.parent?, inside, same]
        exact ih (Nat.lt_of_lt_of_le less (Nat.le_of_lt_succ near))

variable (known : ref.index < store.scopes.size)

include known

/-- An assignment along the chain of a scope is represented by a walk from parent to parent. -/
theorem assign
    (name : String)
    (value : Value) :
    Represents (environments.assign ref name value) (store.assign ref name value) := by
  rw [Environments.assign, represents.assignFrom_eq forest ref value (represents.size ▸ known),
    Store.assign]
  cases first : store.binder? ref name with
  | none => exact represents.declare known name value false
  | some binder =>
    obtain ⟨binding, bound⟩ := Option.isSome_iff_exists.1 (forest.firstBinder_iff.2 first).binds
    dsimp only
    split
    · exact represents
    · exact represents.declare (Store.known_of_binding? bound) name value false

/-- A name has the value that the walk finds. -/
theorem resolve
    (name : String) :
    environments.resolve ref name = store.lookup? ref name :=
  represents.resolveFrom_eq forest (represents.size ▸ known)

end Walks

end Represents

/-! ## All that can be done -/

/-- The same has been done to environments and to a store, from when there were no scopes. -/
inductive Grown : Environments → Store → Prop
  | bare {store : Store} : store.scopes = #[] → Grown #[] store
  | root {environments : Environments} {store : Store} :
      Grown environments store → Grown (environments.push (.inside none)) store.newRoot.2
  | child {environments : Environments} {store : Store} (parent : ScopeRef) :
      Grown environments store → parent.index < store.scopes.size →
      Grown (environments.push (.inside (some parent))) (store.newChild parent).2
  | declare {environments : Environments} {store : Store} (ref : ScopeRef) (name : String)
      (value : Value) (constant : Bool) :
      Grown environments store → ref.index < store.scopes.size →
      Grown (environments.declare ref name value constant)
        (store.declare ref name value constant)
  | assign {environments : Environments} {store : Store} (ref : ScopeRef) (name : String)
      (value : Value) :
      Grown environments store → ref.index < store.scopes.size →
      Grown (environments.assign ref name value) (store.assign ref name value)

/-- The scopes of a store that the same has been done to are planted. -/
theorem Grown.planted
    (grown : Grown environments store) :
    store.Planted := by
  induction grown with
  | bare none => exact .bare none
  | root _ ih => exact .root ih
  | child parent _ known ih => exact .child parent ih known
  | declare ref name value constant _ known ih => exact .declare ref name value constant ih known
  | assign ref name value _ known ih => exact .assign ref name value ih known

/-- Whatever is done to the scopes of a store can be done to environments. -/
theorem exists_grown_of_planted
    (planted : store.Planted) :
    ∃ environments, Grown environments store := by
  induction planted with
  | bare none => exact ⟨_, .bare none⟩
  | root _ ih => exact ih.elim fun _ grown => ⟨_, .root grown⟩
  | child parent _ known ih => exact ih.elim fun _ grown => ⟨_, .child parent grown known⟩
  | declare ref name value constant _ known ih =>
    exact ih.elim fun _ grown => ⟨_, .declare ref name value constant grown known⟩
  | assign ref name value _ known ih =>
    exact ih.elim fun _ grown => ⟨_, .assign ref name value grown known⟩

/-- Environments that the same is done to as to a store have the same scopes. -/
theorem Grown.represents
    (grown : Grown environments store) :
    environments.Represents store := by
  induction grown with
  | @bare store none =>
    refine ⟨congrArg Array.size none.symm, fun ref => ?_⟩
    have missing : store.scope ref = { ancestors := [], bindings := .empty } := by
      simp [Store.scope, none]
    rw [missing]
    exact ⟨rfl, rfl, fun name => by simp [environment, Environment.inside]⟩
  | root _ ih => exact ih.newRoot
  | child parent _ _ ih => exact ih.newChild parent
  | declare ref name value constant _ known ih => exact ih.declare known name value constant
  | assign ref name value grown known ih => exact ih.assign grown.planted.forest known name value

/-- Names are found alike. -/
theorem Grown.resolve_eq
    (grown : Grown environments store)
    (known : ref.index < store.scopes.size)
    (name : String) :
    environments.resolve ref name = store.lookup? ref name :=
  grown.represents.resolve grown.planted.forest known name

/-- No scope protects a name that it does not bind. -/
theorem Grown.contains_of_mem_constants
    (grown : Grown environments store)
    (constant : name ∈ (environments.environment ref).constants) :
    (environments.environment ref).bindings.contains name = true := by
  have here := grown.represents.scope ref
  rw [here.contains_bindings]
  have isConstant := (here.constants name).1 constant
  cases bound : (store.scope ref).bindings.find? name with
  | none => simp [bound] at isConstant
  | some binding => rfl

end Environments
end TinyScript
