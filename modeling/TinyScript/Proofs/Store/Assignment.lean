import TinyScript.Proofs.Store.Keeping

/-!
# Assignments in a forest of scopes

An assignment goes to the first scope on the way to the root that binds the name.  It changes
nothing if the name is protected there, it writes the value in the place of the old one if it is
not, and it binds the name behind all others of the scope at hand if no scope binds it.  Whoever
looks a name up afterwards finds the new value exactly if the first scope that binds the name is
the one that has been changed (`assign_forest`).
-/

namespace TinyScript

/-! ## Writing into a table -/

namespace Table

variable {α : Type}

/-- Writing to a key that is present changes its value in its place. -/
theorem exists_entries_insert_of_find?
    {table : Table α}
    {key : String}
    {old : α}
    (found : table.find? key = some old)
    (new : α) :
    ∃ before after,
      table.entries = before ++ (key, old) :: after ∧
        (table.insert key new).entries = before ++ (key, new) :: after := by
  obtain ⟨entries⟩ := table
  simp only [find?, insert] at found ⊢
  induction entries with
  | nil => cases found
  | cons entry rest ih =>
    obtain ⟨first, value⟩ := entry
    by_cases same : first = key
    · subst same
      obtain rfl : value = old := by simpa using found
      exact ⟨[], rest, rfl, by simp [insertEntry]⟩
    · rw [List.lookup_cons, beq_false_of_ne (Ne.symm same)] at found
      obtain ⟨before, after, split, inserted⟩ := ih found
      refine ⟨(first, value) :: before, after, by rw [split, List.cons_append], ?_⟩
      rw [insertEntry, if_neg same, inserted, List.cons_append]

/-- Writing to a new key puts it behind all others. -/
theorem entries_insert_of_find?_eq_none
    {table : Table α}
    {key : String}
    (absent : table.find? key = none)
    (new : α) :
    (table.insert key new).entries = table.entries ++ [(key, new)] := by
  obtain ⟨entries⟩ := table
  simp only [find?, insert] at absent ⊢
  induction entries with
  | nil => rfl
  | cons entry rest ih =>
    rw [List.lookup_cons] at absent
    split at absent
    · cases absent
    · rename_i differs
      have other : entry.1 ≠ key := fun same => by simp [same] at differs
      rw [insertEntry, if_neg other, ih absent, List.cons_append]

end Table

namespace Store

/-! ## Forests that are planted from outside -/

/-- The stores that come from one without scopes when scopes are made, names are declared in them
and values are assigned to names. -/
inductive Planted : Store → Prop
  | bare {store : Store} : store.scopes = #[] → Planted store
  | root {store : Store} : Planted store → Planted store.newRoot.2
  | child {store : Store} (parent : ScopeRef) :
      Planted store → parent.index < store.scopes.size → Planted (store.newChild parent).2
  | declare {store : Store} (ref : ScopeRef) (name : String) (value : Value) (constant : Bool) :
      Planted store → ref.index < store.scopes.size →
      Planted (store.declare ref name value constant)
  | assign {store : Store} (ref : ScopeRef) (name : String) (value : Value) :
      Planted store → ref.index < store.scopes.size → Planted (store.assign ref name value)

variable {store later : Store} {ref binder changed : ScopeRef} {name : String}

/-- Whatever is done to the scopes of a store, they stay a forest. -/
theorem Planted.forest
    (planted : store.Planted) :
    store.Forest := by
  induction planted with
  | bare none =>
    intro ref parent inside
    have known := known_of_parent? inside
    simp [none] at known
  | root _ ih => exact ih.newRoot
  | child parent _ known ih => exact ih.newChild known
  | declare ref name value constant _ known ih =>
    exact ih.of_size_eq (extends_declare _ ref name value constant) (size_declare ..)
  | assign ref name value _ known ih =>
    exact ih.of_size_eq (extends_assign _ ref name value) (size_assign ..)

/-! ## The first scope that binds a name -/

/-- The first scope on the way from a scope to the root that binds a name. -/
inductive FirstBinder (store : Store) (name : String) : ScopeRef → ScopeRef → Prop
  | here {ref : ScopeRef} :
      (store.binding? ref name).isSome → FirstBinder store name ref ref
  | around {ref parent binder : ScopeRef} :
      store.binding? ref name = none → store.parent? ref = some parent →
      FirstBinder store name parent binder → FirstBinder store name ref binder

/-- The chain of a scope that has a parent goes on with that of the parent. -/
theorem Forest.chain_eq_cons
    (forest : store.Forest)
    {parent : ScopeRef}
    (inside : store.parent? ref = some parent) :
    store.chain ref = ref :: store.chain parent :=
  congrArg (ref :: ·) (forest ref parent inside).2

/-- The chain of a scope without a parent is the scope alone. -/
theorem chain_of_parent?_eq_none
    (root : store.parent? ref = none) :
    store.chain ref = [ref] :=
  congrArg (ref :: ·) (List.head?_eq_none_iff.1 root)

/-- A name that a scope does not bind is looked for from its parent on. -/
theorem Forest.binder?_of_unbound
    (forest : store.Forest)
    {parent : ScopeRef}
    (inside : store.parent? ref = some parent)
    (unbound : store.binding? ref name = none) :
    store.binder? ref name = store.binder? parent name := by
  rw [binder?, forest.chain_eq_cons inside, List.find?_cons_of_neg (by simp [unbound]), binder?]

/-- A scope that is found in the chain is met on the way to the root, and before every other one
that binds the name. -/
theorem Forest.firstBinder_iff
    (forest : store.Forest) :
    store.FirstBinder name ref binder ↔ store.binder? ref name = some binder := by
  constructor
  · intro first
    induction first with
    | here bound => simp [binder?, chain, bound]
    | around unbound inside _ ih => exact (forest.binder?_of_unbound inside unbound).trans ih
  · obtain ⟨index⟩ := ref
    induction index using Nat.strongRecOn with
    | ind index ih =>
      intro found
      by_cases bound : (store.binding? ⟨index⟩ name).isSome
      · obtain rfl : (⟨index⟩ : ScopeRef) = binder := by simpa [binder?, chain, bound] using found
        exact .here bound
      · have unbound := Option.not_isSome_iff_eq_none.1 bound
        cases inside : store.parent? ⟨index⟩ with
        | none =>
          rw [binder?, chain_of_parent?_eq_none inside] at found
          simp [bound] at found
        | some parent =>
          rw [forest.binder?_of_unbound inside unbound] at found
          exact .around unbound inside (ih parent.index (forest ⟨index⟩ parent inside).1 found)

/-- No scope binds a name on the way to the root if and only if none is found in the chain. -/
theorem Forest.forall_not_firstBinder_iff
    (forest : store.Forest) :
    (∀ binder, ¬ store.FirstBinder name ref binder) ↔ store.binder? ref name = none := by
  simp only [forest.firstBinder_iff, Option.eq_none_iff_forall_ne_some, ne_eq]

/-! ## What an assignment changes -/

/-- An assignment changes a scope: the first one that binds the name, unless that protects it, or
the scope at hand if none binds it. -/
def Assigns (store : Store) (ref : ScopeRef) (name : String) (changed : ScopeRef) : Prop :=
  (store.FirstBinder name ref changed ∧ store.isConstant changed name = false) ∨
    (changed = ref ∧ ∀ binder, ¬ store.FirstBinder name ref binder)

/-- Two stores differ at most in the names that one scope binds. -/
structure SameBut (later store : Store) (changed : ScopeRef) : Prop where
  scopes : ∀ other, other ≠ changed → later.scope other = store.scope other
  parent : later.parent? changed = store.parent? changed
  size : later.scopes.size = store.scopes.size
  arrays : later.arrays = store.arrays
  objects : later.objects = store.objects
  output : later.output = store.output

/-- A declaration leaves all but the names of one scope as it is. -/
theorem sameBut_declare
    (store : Store)
    (ref : ScopeRef)
    (name : String)
    (value : Value)
    (constant : Bool) :
    (store.declare ref name value constant).SameBut store ref where
  scopes other differs := scope_declare_of_ne differs store name value constant
  parent := by
    have same := store.chain_declare ref ref name value constant
    rw [parent?, parent?, (List.cons.inj same).2]
  size := store.size_declare ref name value constant
  arrays := rfl
  objects := rfl
  output := rfl

/-- A declaration inserts its binding among those of its scope. -/
theorem bindings_declare_self
    (known : ref.index < store.scopes.size)
    (name : String)
    (value : Value)
    (constant : Bool) :
    ((store.declare ref name value constant).scope ref).bindings =
      (store.scope ref).bindings.insert name
        { value := value, constant := constant || store.isConstant ref name } := by
  simp [declare, modifyBindings, scope, known, Array.getElem_modify]

namespace Forest

variable (forest : store.Forest) (value : Value)

include forest

/-- An assignment to a name that is protected where it is bound changes nothing. -/
theorem assign_eq_self
    (first : store.FirstBinder name ref binder)
    (constant : store.isConstant binder name = true) :
    store.assign ref name value = store := by
  rw [assign, forest.firstBinder_iff.1 first]
  exact if_pos constant

/-- Any other assignment declares the name in the scope that it changes. -/
theorem assign_eq_declare
    (assigns : store.Assigns ref name changed) :
    store.assign ref name value = store.declare changed name value false := by
  rcases assigns with ⟨first, variable_⟩ | ⟨rfl, unbound⟩
  · rw [assign, forest.firstBinder_iff.1 first]
    exact if_neg (by simp [variable_])
  · rw [assign, forest.forall_not_firstBinder_iff.1 unbound]

end Forest

/-- The first scope that binds a name binds it. -/
theorem FirstBinder.binds
    (first : store.FirstBinder name ref binder) :
    (store.binding? binder name).isSome := by
  induction first with
  | here bound => exact bound
  | around _ _ _ ih => exact ih

namespace Assigns

variable (assigns : store.Assigns ref name changed)

include assigns

/-- The scope that an assignment changes is one of the store. -/
theorem known
    (isKnown : ref.index < store.scopes.size) :
    changed.index < store.scopes.size := by
  rcases assigns with ⟨first, _⟩ | ⟨rfl, _⟩
  · obtain ⟨binding, bound⟩ := Option.isSome_iff_exists.1 first.binds
    exact known_of_binding? bound
  · exact isKnown

/-- An assignment changes no constant. -/
theorem isConstant_eq_false :
    store.isConstant changed name = false := by
  rcases assigns with ⟨_, notConstant⟩ | ⟨rfl, unbound⟩
  · exact notConstant
  · have notHere : store.binding? changed name = none :=
      Option.not_isSome_iff_eq_none.1 fun bound => unbound changed (.here bound)
    simp [isConstant, notHere]

end Assigns

/-! ## What is found afterwards -/

section Found

variable {chain : List ScopeRef} {before after : ScopeRef → Option Value} {value : Value}

/-- What the first scope with a value has is what is found. -/
theorem findSome?_of_find?
    (first : chain.find? (fun ref => (after ref).isSome) = some changed)
    (new : after changed = some value) :
    chain.findSome? after = some value := by
  induction chain with
  | nil => cases first
  | cons head rest ih =>
    cases here : after head with
    | none =>
      rw [List.find?_cons_of_neg (by simp [here])] at first
      rw [List.findSome?_cons, here]
      exact ih first
    | some other =>
      rw [List.find?_cons_of_pos (by simp [here])] at first
      obtain rfl := Option.some.inj first
      rw [List.findSome?_cons, ← new, here]

/-- A scope that is not the first with a value does not count. -/
theorem findSome?_eq_of_find?_ne
    (others : ∀ other, other ≠ changed → after other = before other)
    (new : (after changed).isSome)
    (notFirst : chain.find? (fun ref => (after ref).isSome) ≠ some changed) :
    chain.findSome? after = chain.findSome? before := by
  induction chain with
  | nil => rfl
  | cons head rest ih =>
    have apart : head ≠ changed := by
      rintro rfl
      exact notFirst (List.find?_cons_of_pos new)
    rw [List.findSome?_cons, List.findSome?_cons, ← others head apart]
    cases here : after head with
    | none =>
      rw [List.find?_cons_of_neg (by simp [here])] at notFirst
      exact ih notFirst
    | some other => rfl

end Found

namespace Forest

variable (forest : store.Forest)
  (assigns : store.Assigns ref name changed)
  (known : ref.index < store.scopes.size)
  (value : Value)

include forest assigns known

/-- Behind an assignment the name has the value in the scope that is changed. -/
theorem binding?_assign_self :
    (store.assign ref name value).binding? changed name =
      some { value := value, constant := false } := by
  rw [forest.assign_eq_declare value assigns,
    binding?_declare_self (assigns.known known), assigns.isConstant_eq_false]
  rfl

omit known in
/-- An assignment leaves all other bindings as they are. -/
theorem binding?_assign_of_ne
    {other : ScopeRef}
    {key : String}
    (differs : other = changed → key ≠ name) :
    (store.assign ref name value).binding? other key = store.binding? other key := by
  rw [forest.assign_eq_declare value assigns]
  exact binding?_declare_of_ne differs store value false

omit known in
/-- No scope gets another parent by an assignment. -/
theorem chain_assign
    (other : ScopeRef) :
    (store.assign ref name value).chain other = store.chain other := by
  rw [forest.assign_eq_declare value assigns, chain_declare]

/-- The new value is found where the first scope that binds the name is the one that has been
changed. -/
theorem lookup_assign_of_first
    {other : ScopeRef}
    (first : (store.assign ref name value).FirstBinder name other changed)
    (planted : (store.assign ref name value).Forest) :
    (store.assign ref name value).lookup other name = value := by
  have found := planted.firstBinder_iff.1 first
  have new : ((store.assign ref name value).binding? changed name).map (·.value) = some value := by
    rw [forest.binding?_assign_self assigns known]
    rfl
  have isFirst : ((store.assign ref name value).chain other).find?
      (fun outer => (((store.assign ref name value).binding? outer name).map (·.value)).isSome) =
        some changed := by
    simpa only [binder?, Option.isSome_map] using found
  rw [lookup, lookup?, findSome?_of_find? isFirst new]
  rfl

/-- Everywhere else, and under all other names, the same is found as before. -/
theorem lookup_assign_of_not_first
    {other : ScopeRef}
    {key : String}
    (notFirst : key = name → ¬ (store.assign ref name value).FirstBinder name other changed)
    (planted : (store.assign ref name value).Forest) :
    (store.assign ref name value).lookup other key = store.lookup other key := by
  rw [lookup, lookup, lookup?, lookup?, forest.chain_assign assigns]
  by_cases same : key = name
  · subst same
    refine congrArg (·.getD .undefined) (@findSome?_eq_of_find?_ne changed _ _ _ ?_ ?_ ?_)
    · intro outer differs
      rw [forest.binding?_assign_of_ne assigns value fun here => absurd here differs]
    · rw [forest.binding?_assign_self assigns known]
      rfl
    · have notFound := mt planted.firstBinder_iff.2 (notFirst rfl)
      simpa only [binder?, forest.chain_assign assigns, Option.isSome_map] using notFound
  · simp only [forest.binding?_assign_of_ne assigns value fun _ => same]

end Forest

/-- A name that has been bound in the scope at hand is found from wherever that scope is met before
any other one that binds the name. -/
theorem Forest.firstBinder_assign_iff
    (forest : store.Forest)
    (unbound : ∀ binder, ¬ store.FirstBinder name ref binder)
    (known : ref.index < store.scopes.size)
    (value : Value)
    (planted : (store.assign ref name value).Forest)
    (other : ScopeRef) :
    (store.assign ref name value).FirstBinder name other ref ↔
      ∃ before after, store.chain other = before ++ ref :: after ∧
        ∀ outer ∈ before, store.binding? outer name = none := by
  have assigns : store.Assigns ref name ref := .inr ⟨rfl, unbound⟩
  have bound := forest.binding?_assign_self assigns known value
  have others : ∀ outer, outer ≠ ref →
      (store.assign ref name value).binding? outer name = store.binding? outer name :=
    fun outer differs =>
      forest.binding?_assign_of_ne assigns value fun here => absurd here differs
  rw [planted.firstBinder_iff, binder?, forest.chain_assign assigns]
  constructor
  · intro found
    obtain ⟨-, before, after, split, unboundBefore⟩ := List.find?_eq_some_iff_append.1 found
    refine ⟨before, after, split, fun outer mem => ?_⟩
    have unboundLater : (store.assign ref name value).binding? outer name = none := by
      simpa using unboundBefore outer mem
    rwa [others outer] at unboundLater
    rintro rfl
    rw [bound] at unboundLater
    cases unboundLater
  · rintro ⟨before, after, split, unboundBefore⟩
    rw [split]
    clear split
    induction before with
    | nil => exact List.find?_cons_of_pos (by rw [bound]; rfl)
    | cons head rest ih =>
      rw [List.cons_append]
      by_cases here : head = ref
      · subst here
        exact List.find?_cons_of_pos (by rw [bound]; rfl)
      · have unboundHead := unboundBefore head List.mem_cons_self
        rw [← others head here] at unboundHead
        rw [List.find?_cons_of_neg (by simp [unboundHead])]
        exact ih fun outer mem => unboundBefore outer (List.mem_cons_of_mem head mem)

/-- Nothing is found under a name that no scope binds on the way to the root. -/
theorem Forest.lookup_of_not_firstBinder
    (forest : store.Forest)
    (unbound : ∀ binder, ¬ store.FirstBinder name ref binder) :
    store.lookup ref name = .undefined := by
  have unfound : store.lookup? ref name = none := by
    rw [← Option.isNone_iff_eq_none, ← Option.not_isSome, isSome_lookup?,
      forest.forall_not_firstBinder_iff.1 unbound]
    rfl
  rw [lookup, unfound]
  rfl

/-! ## Assignments -/

/-- Whatever forest has been planted and whatever is assigned in one of its scopes: if the first
scope on the way to the root that binds the name protects it, nothing changes.  If that scope does
not protect it, the value is written there in the place of the old one, and if there is no such
scope, the name is bound behind all others of the scope at hand.  Nothing else changes.

A name is then looked up as before, unless it is the one assigned to and the first scope that binds
it is the one that has been changed: then the value is found.  From where a newly bound name is
found can be told from the forest before. -/
theorem assign_forest
    (planted : store.Planted)
    (known : ref.index < store.scopes.size)
    (name : String)
    (value : Value) :
    let later := store.assign ref name value
    (∀ binder, store.FirstBinder name ref binder → store.isConstant binder name = true →
      later = store) ∧
    (∀ binder, store.FirstBinder name ref binder → store.isConstant binder name = false →
      later.SameBut store binder ∧
        ∃ before old after,
          (store.scope binder).bindings.entries = before ++ (name, old) :: after ∧
            (later.scope binder).bindings.entries =
              before ++ (name, { value := value, constant := false }) :: after) ∧
    ((∀ binder, ¬ store.FirstBinder name ref binder) →
      later.SameBut store ref ∧
        (later.scope ref).bindings.entries =
          (store.scope ref).bindings.entries ++ [(name, { value := value, constant := false })] ∧
        ∀ other, later.FirstBinder name other ref ↔
          ∃ before after, store.chain other = before ++ ref :: after ∧
            ∀ outer ∈ before, store.binding? outer name = none) ∧
    (∀ changed, store.Assigns ref name changed → ∀ other key,
      (key = name → later.FirstBinder name other changed → later.lookup other key = value) ∧
      ((key = name → ¬ later.FirstBinder name other changed) →
        later.lookup other key = store.lookup other key)) ∧
    ∀ other key, (∀ binder, ¬ later.FirstBinder key other binder) →
      later.lookup other key = .undefined := by
  intro later
  have forest := planted.forest
  have plantedLater : later.Forest := (Planted.assign ref name value planted known).forest
  have changes : ∀ changed, store.Assigns ref name changed →
      later.SameBut store changed ∧
        (later.scope changed).bindings =
          (store.scope changed).bindings.insert name { value := value, constant := false } := by
    intro changed assigns
    have declared : later = store.declare changed name value false :=
      forest.assign_eq_declare value assigns
    rw [declared, bindings_declare_self (assigns.known known), assigns.isConstant_eq_false]
    exact ⟨store.sameBut_declare changed name value false, rfl⟩
  refine ⟨fun binder first constant => forest.assign_eq_self value first constant,
    fun binder first notConstant => ?_, fun unbound => ?_, fun changed assigns other key => ?_,
    fun other key unbound => plantedLater.lookup_of_not_firstBinder unbound⟩
  · obtain ⟨same, inserted⟩ := changes binder (.inl ⟨first, notConstant⟩)
    obtain ⟨old, bound⟩ := Option.isSome_iff_exists.1 first.binds
    obtain ⟨before, after, split, written⟩ :=
      Table.exists_entries_insert_of_find? bound { value := value, constant := false }
    exact ⟨same, before, old, after, split, (congrArg Table.entries inserted).trans written⟩
  · obtain ⟨same, inserted⟩ := changes ref (.inr ⟨rfl, unbound⟩)
    have notHere : store.binding? ref name = none :=
      Option.not_isSome_iff_eq_none.1 fun bound => unbound ref (.here bound)
    refine ⟨same, ?_, forest.firstBinder_assign_iff unbound known value plantedLater⟩
    exact (congrArg Table.entries inserted).trans
      (Table.entries_insert_of_find?_eq_none notHere _)
  · refine ⟨?_, fun notFirst =>
      forest.lookup_assign_of_not_first assigns known value notFirst plantedLater⟩
    rintro rfl first
    exact forest.lookup_assign_of_first assigns known value first plantedLater

/-- Two scopes beside each other lie in one that binds a constant and a variable.  In the first of
them a name is assigned to that no scope binds, and then the two are assigned to. -/
theorem assign_forest_of_siblings :
    let root := empty.newRoot
    let declared :=
      (root.2.declare root.1 "c" (.bool true) true).declare root.1 "x" (.bool true) false
    let first := declared.newChild root.1
    let second := first.2.newChild root.1
    let inner := second.2.newChild first.1
    let store := inner.2
    let later := store.assign first.1 "n" .null
    let last := (later.assign inner.1 "c" .null).assign inner.1 "x" .null
    (last.lookup inner.1 "n").typeTag = .null ∧
    (last.lookup second.1 "n").typeTag = .undefined ∧
    (last.lookup second.1 "c").typeTag = .boolean ∧
    (last.lookup second.1 "x").typeTag = .null ∧
    store.Planted ∧
    first.1.index < store.scopes.size ∧
    later.lookup inner.1 "n" = .null ∧
    later.lookup second.1 "n" = store.lookup second.1 "n" := by
  intro root declared first second inner store later last
  have planted : store.Planted := by
    refine .child first.1 (.child root.1 (.child root.1 (.declare root.1 "x" (.bool true) false
      (.declare root.1 "c" (.bool true) true (.root (.bare rfl)) ?_) ?_) ?_) ?_) ?_ <;> decide
  have known : first.1.index < store.scopes.size := by decide
  have unbound : ∀ binder, ¬ store.FirstBinder "n" first.1 binder :=
    planted.forest.forall_not_firstBinder_iff.2 (by decide)
  obtain ⟨-, -, appended, found, -⟩ := assign_forest planted known "n" .null
  obtain ⟨-, -, binders⟩ := appended unbound
  have assigns : store.Assigns first.1 "n" first.1 := .inr ⟨rfl, unbound⟩
  refine ⟨by decide, by decide, by decide, by decide, planted, known, ?_, ?_⟩
  · refine (found first.1 assigns inner.1 "n").1 rfl ((binders inner.1).2 ?_)
    exact ⟨[inner.1], [root.1], rfl, by decide⟩
  · refine (found first.1 assigns second.1 "n").2 fun _ isFirst => ?_
    obtain ⟨before, after, split, -⟩ := (binders second.1).1 isFirst
    have mem : first.1 ∈ store.chain second.1 := by simp [split]
    exact absurd mem (by decide)

end Store
end TinyScript
