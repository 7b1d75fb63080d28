import TinyScript.Proofs.Store.Growth

/-!
# What scopes bind

A declaration changes one name of one scope, and an assignment at most one name that is no
constant.  An assignment to a name that is bound neither binds nor protects any
(`protection?_assign`).
-/

namespace TinyScript
namespace Store

variable {store : Store} {ref : ScopeRef} {name : String}

/-- A scope that binds a name is known to the store. -/
theorem known_of_binding?
    {binding : Binding}
    (bound : store.binding? ref name = some binding) :
    ref.index < store.scopes.size := by
  refine Nat.lt_of_not_le fun unknown => ?_
  simp [binding?, scope, unknown] at bound

theorem binding?_of_scopes_eq
    {later : Store}
    (same : later.scopes = store.scopes)
    (ref : ScopeRef)
    (name : String) :
    later.binding? ref name = store.binding? ref name := by
  simp only [binding?, scope, same]

/-- A new scope binds no name of those that are there. -/
theorem binding?_newChild
    (known : ref.index < store.scopes.size)
    (parent : ScopeRef)
    (name : String) :
    (store.newChild parent).2.binding? ref name = store.binding? ref name := by
  simp [binding?, scope, newChild, Array.getElem?_push, Nat.ne_of_lt known]

/-- A declaration leaves the other bindings as they are. -/
theorem binding?_declare_of_ne
    {other : ScopeRef}
    {declared : String}
    (differs : ref = other → name ≠ declared)
    (store : Store)
    (value : Value)
    (constant : Bool) :
    (store.declare other declared value constant).binding? ref name = store.binding? ref name := by
  by_cases same : ref = other
  · subst same
    exact binding?_declare_of_ne_name (differs rfl) store ref value constant
  · simp only [binding?, scope_declare_of_ne same]

/-- The arguments of a call are bound in the scope of the call only. -/
theorem binding?_bindArguments_of_ne
    {other : ScopeRef}
    (differs : ref ≠ other)
    (store : Store)
    (name : String)
    (parameters : List Parameter)
    (arguments : List Value) :
    (Machine.bindArguments store other parameters arguments).binding? ref name =
      store.binding? ref name :=
  bindArguments_preserves (P := fun later => later.binding? ref name = store.binding? ref name)
    (fun later _ value kept =>
      (binding?_declare_of_ne (fun same => absurd same differs) later value false).trans kept)
    rfl parameters arguments

/-- An assignment changes nothing, or it declares a name that is no constant again. -/
theorem exists_assign_eq
    (store : Store)
    (scope : ScopeRef)
    (name : String)
    (value : Value) :
    store.assign scope name value = store ∨
      ∃ binder, store.isConstant binder name = false ∧
        store.assign scope name value = store.declare binder name value false := by
  unfold assign
  split
  · rename_i unbound
    refine .inr ⟨scope, ?_, rfl⟩
    have notHere : store.binding? scope name = none := by
      simpa using List.find?_eq_none.1 unbound scope List.mem_cons_self
    simp [isConstant, notHere]
  · rename_i binder _
    split
    · exact .inl rfl
    · rename_i notConstant
      exact .inr ⟨binder, by simpa using notConstant, rfl⟩

/-- No assignment reaches a constant. -/
theorem binding?_assign_of_constant
    {value : Value}
    (bound : store.binding? ref name = some { value := value, constant := true })
    (scope : ScopeRef)
    (assigned : String)
    (given : Value) :
    (store.assign scope assigned given).binding? ref name = store.binding? ref name := by
  rcases store.exists_assign_eq scope assigned given with same | ⟨binder, notConstant, same⟩
  · rw [same]
  · rw [same]
    refine binding?_declare_of_ne ?_ store given false
    rintro rfl rfl
    simp [isConstant, bound] at notConstant

/-! ## Which names are bound, and which of them are protected -/

/-- Whether a scope itself protects a name, if it binds it. -/
def protection? (store : Store) (ref : ScopeRef) (name : String) : Option Bool :=
  (store.binding? ref name).map (·.constant)

theorem protection?_of_scopes_eq
    {later : Store}
    (same : later.scopes = store.scopes)
    (ref : ScopeRef)
    (name : String) :
    later.protection? ref name = store.protection? ref name := by
  rw [protection?, protection?, binding?_of_scopes_eq same]

/-- A new scope protects and unprotects nothing in those that are there. -/
theorem protection?_newChild
    (known : ref.index < store.scopes.size)
    (parent : ScopeRef)
    (name : String) :
    (store.newChild parent).2.protection? ref name = store.protection? ref name := by
  rw [protection?, protection?, binding?_newChild known]

/-- A declaration protects and unprotects nothing in other scopes. -/
theorem protection?_declare_of_ne
    {other : ScopeRef}
    (differs : ref ≠ other)
    (store : Store)
    (name declared : String)
    (value : Value)
    (constant : Bool) :
    (store.declare other declared value constant).protection? ref name =
      store.protection? ref name := by
  rw [protection?, protection?, binding?_declare_of_ne fun same => absurd same differs]

/-- The arguments of a call protect and unprotect nothing in other scopes. -/
theorem protection?_bindArguments_of_ne
    {other : ScopeRef}
    (differs : ref ≠ other)
    (store : Store)
    (name : String)
    (parameters : List Parameter)
    (arguments : List Value) :
    (Machine.bindArguments store other parameters arguments).protection? ref name =
      store.protection? ref name := by
  rw [protection?, protection?, binding?_bindArguments_of_ne differs]

/-- A variable that is declared again as one is neither more nor less protected. -/
theorem protection?_declare_of_bound
    {binder : ScopeRef}
    {declared : String}
    (bound : (store.binding? binder declared).isSome)
    (value : Value)
    (ref : ScopeRef)
    (name : String) :
    (store.declare binder declared value false).protection? ref name =
      store.protection? ref name := by
  obtain ⟨binding, isBound⟩ := Option.isSome_iff_exists.1 bound
  by_cases same : ref = binder ∧ name = declared
  · obtain ⟨rfl, rfl⟩ := same
    simp [protection?, binding?_declare_self (known_of_binding? isBound), isConstant, isBound]
  · have differs : ref = binder → name ≠ declared := fun sameScope sameName =>
      same ⟨sameScope, sameName⟩
    rw [protection?, protection?, binding?_declare_of_ne differs]

/-- A name has a value just when a scope of the chain binds it. -/
theorem isSome_lookup?
    (store : Store)
    (scope : ScopeRef)
    (name : String) :
    (store.lookup? scope name).isSome = (store.binder? scope name).isSome := by
  rw [lookup?, binder?, List.isSome_findSome?, List.isSome_find?]
  simp

/-- An assignment binds a name at most in the scope that it is made in, and only if the name is not
bound there or around it.  It protects none. -/
theorem protection?_assign
    {scope : ScopeRef}
    {assigned : String}
    (bound : ref = scope → (store.lookup? scope assigned).isSome)
    (name : String)
    (value : Value) :
    (store.assign scope assigned value).protection? ref name = store.protection? ref name := by
  rw [assign]
  cases binds : store.binder? scope assigned with
  | none =>
    refine protection?_declare_of_ne (fun here => ?_) store name assigned value false
    have isBound := bound here
    rw [isSome_lookup?, binds] at isBound
    cases isBound
  | some binder =>
    simp only
    split
    · rfl
    · have isBound : (store.binding? binder assigned).isSome = true :=
        List.find?_some (p := fun ref => (store.binding? ref assigned).isSome) binds
      exact protection?_declare_of_bound isBound value ref name

end Store
end TinyScript
