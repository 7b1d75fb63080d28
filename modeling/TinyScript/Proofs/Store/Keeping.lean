import TinyScript.Proofs.Store.Bindings

/-!
# What a store keeps

The names of a scope stay in their order and new ones are bound behind them, a constant
remains one, and the output is written at its end only.  The scopes form a forest: each one
is a root or lies directly inside one that was made before it.
-/

namespace TinyScript

/-- A new key comes behind those that are there. -/
theorem Table.keys_isPrefix_insert
    {α : Type}
    (table : Table α)
    (key : String)
    (value : α) :
    table.keys <+: (table.insert key value).keys := by
  cases present : table.contains key with
  | true =>
    rewrite [keys_insert_of_contains present]
    exact List.prefix_rfl
  | false =>
    rw [keys_insert_of_not_contains present]
    exact List.prefix_append table.keys [key]

/-- An output goes on where another one ends. -/
def Output.Continues (later output : Output) : Prop :=
  ∃ more, later.text = output.text ++ more

namespace Output.Continues

theorem of_eq
    {output later : Output}
    (same : later = output) :
    later.Continues output :=
  ⟨"", by rw [same, String.append_empty]⟩

/-- A text that is written continues an output. -/
theorem write
    (output : Output)
    (text : String) :
    (output.write text).Continues output :=
  ⟨text, rfl⟩

/-- What continues an output that continues another one continues that as well. -/
theorem trans
    {output later latest : Output}
    (second : latest.Continues later)
    (first : later.Continues output) :
    latest.Continues output := by
  obtain ⟨more, continues⟩ := first
  obtain ⟨rest, goesOn⟩ := second
  exact ⟨more ++ rest, by rw [goesOn, continues, String.append_assoc]⟩

end Output.Continues

namespace Store

/-! ## Names and constants -/

/-- The scopes of a store bind the names of another one, in their order and before all others, and
protect those that were protected. -/
structure KeepsNames (later store : Store) : Prop where
  names : ∀ ref : ScopeRef,
    (store.scope ref).bindings.keys <+: (later.scope ref).bindings.keys
  constants : ∀ (ref : ScopeRef) (name : String),
    store.isConstant ref name = true → later.isConstant ref name = true

variable {store later : Store}

/-- Stores with the same scopes keep each other's names. -/
theorem keepsNames_of_scopes_eq
    (same : later.scopes = store.scopes) :
    later.KeepsNames store where
  names ref := by
    simp only [scope, same]
    exact List.prefix_rfl
  constants ref name constant := by
    rw [← constant]
    simp only [isConstant, binding?_of_scopes_eq same]

/-- Names are kept from one store to the next. -/
theorem KeepsNames.trans
    {latest : Store}
    (second : latest.KeepsNames later)
    (first : later.KeepsNames store) :
    latest.KeepsNames store where
  names ref := (first.names ref).trans (second.names ref)
  constants ref name constant := second.constants ref name (first.constants ref name constant)

/-- A name that a scope protects is bound there. -/
theorem exists_binding_of_isConstant
    {ref : ScopeRef}
    {name : String}
    (constant : store.isConstant ref name = true) :
    ∃ binding, store.binding? ref name = some binding := by
  cases bound : store.binding? ref name with
  | none => simp [isConstant, bound] at constant
  | some binding => exact ⟨binding, rfl⟩

/-- A scope in which a name is protected is known to the store. -/
theorem known_of_isConstant
    {ref : ScopeRef}
    {name : String}
    (constant : store.isConstant ref name = true) :
    ref.index < store.scopes.size := by
  obtain ⟨binding, bound⟩ := exists_binding_of_isConstant constant
  exact known_of_binding? bound

/-- A name that is protected in a scope is bound in it. -/
theorem mem_keys_of_isConstant
    {ref : ScopeRef}
    {name : String}
    (constant : store.isConstant ref name = true) :
    name ∈ (store.scope ref).bindings.keys := by
  rw [← Table.contains_iff_mem_keys, Table.contains, Option.isSome_iff_exists]
  exact exists_binding_of_isConstant constant

/-- A declaration takes no name away and unprotects none. -/
theorem keepsNames_declare
    (store : Store)
    (ref : ScopeRef)
    (name : String)
    (value : Value)
    (constant : Bool) :
    (store.declare ref name value constant).KeepsNames store where
  names other := by
    by_cases same : other = ref
    · subst same
      by_cases known : other.index < store.scopes.size
      · simp only [declare, modifyBindings, scope, Array.getElem?_modify, if_true]
        simp only [Array.getElem?_eq_getElem known, Option.map_some, Option.getD_some]
        exact Table.keys_isPrefix_insert _ name _
      · simp [declare, modifyBindings, scope, known]
    · rewrite [scope_declare_of_ne same]
      exact List.prefix_rfl
  constants other guarded before := by
    have known := known_of_isConstant before
    by_cases isDeclared : other = ref ∧ guarded = name
    · obtain ⟨rfl, rfl⟩ := isDeclared
      rw [isConstant, binding?_declare_self known, Option.any_some, before]
      exact Bool.or_true constant
    · have sameBinding :
          (store.declare ref name value constant).binding? other guarded =
            store.binding? other guarded :=
        binding?_declare_of_ne (fun same sameName => isDeclared ⟨same, sameName⟩) store value
          constant
      rw [← before]
      simp only [isConstant, sameBinding]

/-- An assignment takes no name away, and no constant gets another value by it. -/
theorem keepsNames_assign
    (store : Store)
    (ref : ScopeRef)
    (name : String)
    (value : Value) :
    (store.assign ref name value).KeepsNames store := by
  rcases store.exists_assign_eq ref name value with same | ⟨binder, _, same⟩
  · rw [same]
    exact keepsNames_of_scopes_eq rfl
  · rw [same]
    exact store.keepsNames_declare binder name value false

/-- A scope without names may be added to a store. -/
theorem keepsNames_push
    (store : Store)
    (around : List ScopeRef) :
    ({ store with
        scopes := store.scopes.push { ancestors := around, bindings := .empty } } :
      Store).KeepsNames store where
  names ref := by
    by_cases known : ref.index < store.scopes.size
    · simp [scope, Array.getElem?_push, Nat.ne_of_lt known]
    · simp [scope, known, Table.keys, Table.empty]
  constants ref name constant := by
    have known := known_of_isConstant constant
    rw [← constant]
    simp [isConstant, binding?, scope, Array.getElem?_push, Nat.ne_of_lt known]

/-- A new scope takes no name away. -/
theorem keepsNames_newChild
    (store : Store)
    (parent : ScopeRef) :
    (store.newChild parent).2.KeepsNames store :=
  store.keepsNames_push (store.chain parent)

/-- Binding the arguments of a call takes no name away. -/
theorem keepsNames_bindArguments
    (store : Store)
    (ref : ScopeRef)
    (parameters : List Parameter)
    (arguments : List Value) :
    (Machine.bindArguments store ref parameters arguments).KeepsNames store :=
  bindArguments_preserves (P := (·.KeepsNames store))
    (fun later name value keeps => (later.keepsNames_declare ref name value false).trans keeps)
    (keepsNames_of_scopes_eq rfl) parameters arguments

/-- A store has what another one had: its scopes where they were, their names in their order, the
constants, and the output. -/
structure Keeps (later store : Store) : Prop where
  scopes : later.Extends store
  names : later.KeepsNames store
  output : later.output.Continues store.output

theorem Keeps.refl
    (store : Store) :
    store.Keeps store :=
  ⟨.refl store, keepsNames_of_scopes_eq rfl, .of_eq rfl⟩

/-- What is kept by every part of a course is kept by the whole. -/
theorem Keeps.trans
    {latest : Store}
    (second : latest.Keeps later)
    (first : later.Keeps store) :
    latest.Keeps store :=
  ⟨second.scopes.trans first.scopes, second.names.trans first.names,
    second.output.trans first.output⟩

/-- A name that is bound in a scope or around it remains so. -/
theorem Keeps.isSome_lookup?
    (keeps : later.Keeps store)
    {scope : ScopeRef}
    (known : scope.index < store.scopes.size)
    {name : String}
    (bound : (store.lookup? scope name).isSome) :
    (later.lookup? scope name).isSome := by
  rw [lookup?, List.isSome_findSome?] at bound ⊢
  obtain ⟨binder, mem, binds⟩ := List.any_eq_true.1 bound
  refine List.any_eq_true.2 ⟨binder, ?_, ?_⟩
  · rw [chain, keeps.scopes.ancestors scope known]
    exact mem
  · rw [Option.isSome_map] at binds ⊢
    exact Table.contains_iff_mem_keys.2
      ((keeps.names.names binder).subset (Table.contains_iff_mem_keys.1 binds))

theorem keeps_newRoot
    (store : Store) :
    store.newRoot.2.Keeps store :=
  ⟨store.extends_newRoot, store.keepsNames_push [], .of_eq rfl⟩

/-- A new scope leaves everything that is there. -/
theorem keeps_newChild
    (store : Store)
    (parent : ScopeRef) :
    (store.newChild parent).2.Keeps store :=
  ⟨store.extends_newChild parent, store.keepsNames_newChild parent, .of_eq rfl⟩

/-! ## The forest of scopes -/

/-- The scope that a scope lies directly inside, if it is not a root. -/
def parent? (store : Store) (ref : ScopeRef) : Option ScopeRef :=
  (store.scope ref).ancestors.head?

/-- Every scope that is no root lies inside one that was made before it, and inside those around
that one. -/
def Forest (store : Store) : Prop :=
  ∀ ref parent : ScopeRef, store.parent? ref = some parent →
    parent.index < ref.index ∧ (store.scope ref).ancestors = store.chain parent

/-- A scope that lies inside another one is known to the store. -/
theorem known_of_parent?
    {ref parent : ScopeRef}
    (isParent : store.parent? ref = some parent) :
    ref.index < store.scopes.size := by
  refine Nat.lt_of_not_le fun unknown => ?_
  simp [parent?, scope, unknown] at isParent

namespace Forest

/-- A chain ends at a root. -/
theorem exists_root
    (forest : store.Forest)
    (ref : ScopeRef) :
    ∃ root, (store.chain ref).getLast? = some root ∧ store.parent? root = none := by
  obtain ⟨index⟩ := ref
  induction index using Nat.strongRecOn with
  | ind index ih =>
    cases inside : store.parent? ⟨index⟩ with
    | none =>
      have alone : (store.scope ⟨index⟩).ancestors = [] := List.head?_eq_none_iff.1 inside
      exact ⟨⟨index⟩, by simp [chain, alone], inside⟩
    | some parent =>
      obtain ⟨earlier, around⟩ := forest ⟨index⟩ parent inside
      obtain ⟨root, last, isRoot⟩ := ih parent.index earlier
      refine ⟨root, ?_, isRoot⟩
      rw [chain, around, ← last]
      simp [chain, List.getLast?_cons_cons]

/-- The scopes around a scope of a forest were made before it. -/
theorem lt_of_mem_ancestors
    (forest : store.Forest)
    {ref outer : ScopeRef}
    (around : outer ∈ (store.scope ref).ancestors) :
    outer.index < ref.index := by
  obtain ⟨index⟩ := ref
  induction index using Nat.strongRecOn with
  | ind index ih =>
    cases inside : store.parent? ⟨index⟩ with
    | none =>
      have alone : (store.scope ⟨index⟩).ancestors = [] := List.head?_eq_none_iff.1 inside
      rw [alone] at around
      cases around
    | some parent =>
      obtain ⟨earlier, same⟩ := forest ⟨index⟩ parent inside
      rw [same, chain] at around
      rcases List.mem_cons.1 around with rfl | further
      · exact earlier
      · exact Nat.lt_trans (ih parent.index earlier further) earlier

/-- A store stays a forest when each new scope lies inside one made before it. -/
theorem grows
    (forest : store.Forest)
    (grown : later.Extends store)
    (opened : ∀ ref parent : ScopeRef, store.scopes.size ≤ ref.index →
      later.parent? ref = some parent →
        parent.index < ref.index ∧ (later.scope ref).ancestors = later.chain parent) :
    later.Forest := by
  intro ref parent inside
  by_cases known : ref.index < store.scopes.size
  · have same := grown.ancestors ref known
    have insideBefore : store.parent? ref = some parent := by rwa [parent?, ← same]
    obtain ⟨earlier, around⟩ := forest ref parent insideBefore
    refine ⟨earlier, ?_⟩
    rw [same, around, chain, chain, grown.ancestors parent (Nat.lt_trans earlier known)]
  · exact opened ref parent (Nat.le_of_not_lt known) inside

/-- Scopes that stay at their places stay a forest. -/
theorem of_size_eq
    (forest : store.Forest)
    (grown : later.Extends store)
    (size : later.scopes.size = store.scopes.size) :
    later.Forest := by
  refine forest.grows grown fun ref parent new inside => ?_
  have known := known_of_parent? inside
  omega

/-- A scope without a parent is the root of a tree of its own. -/
theorem newRoot
    (forest : store.Forest) :
    store.newRoot.2.Forest := by
  refine forest.grows store.extends_newRoot fun ref parent new inside => ?_
  have known := known_of_parent? inside
  have isLast : ref.index = store.scopes.size := by
    simp only [Store.newRoot, Array.size_push] at known
    omega
  simp [parent?, scope, Store.newRoot, isLast] at inside

/-- A scope inside another one is a leaf of the same tree. -/
theorem newChild
    (forest : store.Forest)
    {parent : ScopeRef}
    (known : parent.index < store.scopes.size) :
    (store.newChild parent).2.Forest := by
  have grown := store.extends_newChild parent
  refine forest.grows grown fun ref outer new inside => ?_
  have isLast : ref = (store.newChild parent).1 := by
    have known := known_of_parent? inside
    rw [size_newChild] at known
    obtain ⟨index⟩ := ref
    have index_eq : index = store.scopes.size := by
      simp only at new known
      omega
    rw [index_eq]
    rfl
  subst isLast
  have isParent : parent = outer := by
    simpa [parent?, chain] using inside
  subst isParent
  refine ⟨known, ?_⟩
  rw [ancestors_newChild, chain, chain, grown.ancestors parent known]

end Forest
end Store
end TinyScript
