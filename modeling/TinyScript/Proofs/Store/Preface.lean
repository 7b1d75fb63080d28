import TinyScript.Proofs.Store.Growth
import TinyScript.Proofs.Store.Heap

/-!
# Names bound in front of others

A store may have further names in one of its scopes, in front of those that are bound there.
Whatever is done with other names is done as it is without the further ones.
-/

namespace TinyScript

/-! ## Tables -/

namespace Table

variable {α : Type} {front : List (String × α)} {key : String}

/-- A table behind other entries. -/
def behind (front : List (String × α)) (table : Table α) : Table α :=
  { entries := front ++ table.entries }

/-- A key that is not in front has the value that it has in the table. -/
theorem find?_behind
    (absent : key ∉ front.map (·.1))
    (table : Table α) :
    (table.behind front).find? key = table.find? key := by
  induction front with
  | nil => rfl
  | cons entry front ih =>
    rw [List.map_cons, List.mem_cons, not_or] at absent
    have skips := ih absent.2
    simp only [find?, behind] at skips ⊢
    rw [List.cons_append, List.lookup_cons, beq_false_of_ne absent.1]
    exact skips

/-- A key that is not in front is inserted in the table. -/
theorem insert_behind
    (absent : key ∉ front.map (·.1))
    (table : Table α)
    (value : α) :
    (table.behind front).insert key value = (table.insert key value).behind front := by
  induction front with
  | nil => rfl
  | cons entry front ih =>
    rw [List.map_cons, List.mem_cons, not_or] at absent
    have skips := ih absent.2
    simp only [insert, behind, Table.mk.injEq] at skips ⊢
    rw [List.cons_append, insertEntry, if_neg (Ne.symm absent.1), skips]
    rfl

end Table

/-! ## Stores -/

/-- Two changes in an array commute if they do so where they meet. -/
theorem modify_modify
    {α : Type}
    (items : Array α)
    {i j : Nat}
    {f g : α → α}
    (commute : i = j → ∀ item, g (f item) = f (g item)) :
    (items.modify i f).modify j g = (items.modify j g).modify i f := by
  refine Array.ext_getElem? fun place => ?_
  simp only [Array.getElem?_modify]
  by_cases first : i = place
  · by_cases second : j = place
    · simp [first, second, commute (first.trans second.symm), Function.comp_def]
    · simp [first, second]
  · simp [first]

/-- A change in an array is made before or after an item is added. -/
theorem push_modify
    {α : Type}
    {items : Array α}
    {i : Nat}
    (known : i < items.size)
    (f : α → α)
    (item : α) :
    (items.modify i f).push item = (items.push item).modify i f := by
  refine Array.ext_getElem? fun place => ?_
  simp only [Array.getElem?_modify, Array.getElem?_push, Array.size_modify]
  by_cases atEnd : place = items.size
  · simp [atEnd, Nat.ne_of_lt known]
  · simp [atEnd]

namespace Store

/-- A store with further names in front of those of a scope. -/
def preface (home : ScopeRef) (front : List (String × Binding)) (store : Store) : Store :=
  store.modifyBindings home (Table.behind front)

variable {home : ScopeRef} {front : List (String × Binding)} (store : Store)

/-- Names in front change no array and no object. -/
theorem sameHeap_preface :
    (store.preface home front).SameHeap store :=
  ⟨rfl, rfl⟩

@[simp] theorem size_preface :
    (store.preface home front).scopes.size = store.scopes.size := by
  simp [preface, modifyBindings]

/-- Names in front leave the chains of scopes as they are. -/
@[simp] theorem chain_preface
    (ref : ScopeRef) :
    (store.preface home front).chain ref = store.chain ref := by
  simp only [preface, modifyBindings, chain, scope, Array.getElem?_modify]
  split
  · cases store.scopes[ref.index]? <;> rfl
  · rfl

/-- The scope at home has the names in front of its own. -/
theorem scope_preface_home
    (known : home.index < store.scopes.size) :
    ((store.preface home front).scope home).bindings =
      (store.scope home).bindings.behind front := by
  simp [preface, modifyBindings, scope, known, Array.getElem_modify]

variable {name : String}

/-- A name that is not in front is bound alike. -/
theorem binding?_preface
    {ref : ScopeRef}
    (absent : ref = home → name ∉ front.map (·.1)) :
    (store.preface home front).binding? ref name = store.binding? ref name := by
  simp only [preface, modifyBindings, binding?, scope, Array.getElem?_modify]
  split
  · rename_i same
    have atHome : ref = home := by
      cases ref
      cases home
      simp_all
    cases store.scopes[ref.index]? with
    | none => rfl
    | some scope => exact Table.find?_behind (absent atHome) scope.bindings
  · rfl

/-- A name that is not in front is bound by the same scope. -/
theorem binder?_preface
    (absent : name ∉ front.map (·.1))
    (ref : ScopeRef) :
    (store.preface home front).binder? ref name = store.binder? ref name := by
  simp only [binder?, chain_preface, store.binding?_preface fun _ => absent]

/-- A name that is not in front has the same value. -/
theorem lookup?_preface
    (absent : name ∉ front.map (·.1))
    (ref : ScopeRef) :
    (store.preface home front).lookup? ref name = store.lookup? ref name := by
  simp only [lookup?, chain_preface, store.binding?_preface fun _ => absent]

theorem lookup_preface
    (absent : name ∉ front.map (·.1))
    (ref : ScopeRef) :
    (store.preface home front).lookup ref name = store.lookup ref name := by
  simp only [lookup, store.lookup?_preface absent]

/-- A name that is not in front is declared alike. -/
theorem declare_preface
    {ref : ScopeRef}
    (absent : ref = home → name ∉ front.map (·.1))
    (value : Value)
    (constant : Bool) :
    (store.preface home front).declare ref name value constant =
      (store.declare ref name value constant).preface home front := by
  simp only [declare, isConstant, store.binding?_preface absent]
  simp only [preface, modifyBindings]
  rw [modify_modify]
  intro same scope
  have atHome : ref = home := by
    cases ref
    cases home
    simp_all
  simp only [Table.insert_behind (absent atHome)]

/-- A name that is not in front is assigned to alike. -/
theorem assign_preface
    (absent : name ∉ front.map (·.1))
    (ref : ScopeRef)
    (value : Value) :
    (store.preface home front).assign ref name value =
      (store.assign ref name value).preface home front := by
  simp only [assign, store.binder?_preface absent]
  cases store.binder? ref name with
  | none => exact store.declare_preface (fun _ => absent) value false
  | some binder =>
    have sameMark :
        (store.preface home front).isConstant binder name = store.isConstant binder name := by
      simp only [isConstant, store.binding?_preface fun _ => absent]
    simp only [sameMark, store.declare_preface fun _ => absent]
    cases store.isConstant binder name <;> rfl

/-- A new scope has no names, and so no further ones, unless it is the one that has them. -/
theorem newChild_preface
    (known : home.index < store.scopes.size)
    (parent : ScopeRef) :
    (store.preface home front).newChild parent =
      ((store.newChild parent).1, (store.newChild parent).2.preface home front) := by
  simp only [newChild, chain_preface, size_preface]
  simp only [preface, modifyBindings, push_modify known]

/-- The arguments of a call are bound alike behind names in front, which are in another scope. -/
theorem bindArguments_preface
    {ref : ScopeRef}
    (apart : ref ≠ home)
    (parameters : List Parameter)
    (arguments : List Value) :
    Machine.bindArguments (store.preface home front) ref parameters arguments =
      (Machine.bindArguments store ref parameters arguments).preface home front := by
  induction parameters generalizing store arguments with
  | nil => cases arguments <;> rfl
  | cons parameter parameters ih =>
    cases arguments with
    | nil => rfl
    | cons argument arguments =>
      simp only [Machine.bindArguments, store.declare_preface fun same => absurd same apart]
      exact ih _ arguments

end Store
end TinyScript
