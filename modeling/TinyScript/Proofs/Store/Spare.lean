import TinyScript.Proofs.Store.Enlarging

/-!
# Stores beside a spare scope

A scope that nothing refers to may stand among those of a store: references to the scopes behind it
move up by one, and whatever is done to the store is done to it beside the spare scope.
-/

namespace TinyScript

/-- A scope that is put among those of a store, and its place there. -/
structure Spare where
  index : Nat
  scope : Scope

/-- The reference to a scope beside a spare one, which those from its place on make room for. -/
def ScopeRef.beside (spare : Spare) (ref : ScopeRef) : ScopeRef :=
  if ref.index < spare.index then ref else ⟨ref.index + 1⟩

/-- The places beside a spare scope. -/
def Relocation.beside (spare : Spare) : Relocation where
  scope := ScopeRef.beside spare
  array := id
  object := id

/-- A value beside a spare scope. -/
abbrev Value.beside (spare : Spare) : Value → Value :=
  Value.relocate (.beside spare)

/-- A binding beside a spare scope. -/
abbrev Binding.beside (spare : Spare) : Binding → Binding :=
  Binding.relocate (.beside spare)

/-- A scope beside a spare one. -/
abbrev Scope.beside (spare : Spare) : Scope → Scope :=
  Scope.relocate (.beside spare)

/-- A store with a spare scope. -/
def Store.beside (spare : Spare) (store : Store) : Store :=
  { scopes :=
      ((store.scopes.map (Scope.beside spare)).toList.insertIdx spare.index spare.scope).toArray
    arrays := store.arrays.map (Array.map (Value.beside spare))
    objects := store.objects.map (Table.map (Value.beside spare))
    output := store.output }

variable {spare : Spare}

/-- A scope that was there before the spare one keeps its place. -/
theorem ScopeRef.beside_of_lt
    {ref : ScopeRef}
    (before : ref.index < spare.index) :
    ref.beside spare = ref :=
  if_pos before

/-- Scopes that were there before the spare one keep their places. -/
theorem ScopeRef.map_beside_of_lt
    {refs : List ScopeRef}
    (before : ∀ ref ∈ refs, ref.index < spare.index) :
    refs.map (ScopeRef.beside spare) = refs :=
  (List.map_congr_left fun ref mem => beside_of_lt (before ref mem)).trans (List.map_id refs)

/-- A scope that was made later than the spare one comes one place later. -/
theorem ScopeRef.beside_of_le
    {ref : ScopeRef}
    (behind : spare.index ≤ ref.index) :
    ref.beside spare = ⟨ref.index + 1⟩ :=
  if_neg (Nat.not_lt_of_le behind)

section Index

variable (spare) (ref : ScopeRef) {index : Nat}

/-- Nothing refers to the place of the spare scope. -/
theorem ScopeRef.index_beside_ne :
    (ref.beside spare).index ≠ spare.index := by
  rw [beside]
  split
  · exact Nat.ne_of_lt ‹_›
  · exact Nat.ne_of_gt (Nat.lt_succ_of_le (Nat.le_of_not_lt ‹_›))

/-- What is found before the place of the spare scope was there before it. -/
theorem ScopeRef.index_beside_of_lt
    (before : index < spare.index) :
    (ref.beside spare).index = index ↔ ref.index = index := by
  rw [beside]
  split
  · rfl
  · dsimp only
    omega

/-- What is found behind the place of the spare scope was made later than it. -/
theorem ScopeRef.index_beside_of_gt
    (behind : spare.index < index) :
    (ref.beside spare).index = index ↔ ref.index = index - 1 := by
  rw [beside]
  split
  · omega
  · dsimp only
    omega

end Index

namespace Store

/-- A store beside a spare scope is the image of the store. -/
theorem disguised_beside
    (spare : Spare)
    (store : Store) :
    store.Disguised (Relocation.beside spare).disguise (store.beside spare) :=
  .of_map rfl rfl rfl rfl

/-- An array gets the same place beside a spare scope. -/
theorem newArray_beside
    (store : Store)
    (items : Array Value) :
    (store.beside spare).newArray (items.map (Value.beside spare)) =
      ((store.newArray items).1, (store.newArray items).2.beside spare) := by
  simp [newArray, beside]

/-- An object gets the same place beside a spare scope. -/
theorem newObject_beside
    (store : Store)
    (properties : Table Value) :
    (store.beside spare).newObject (properties.map (Value.beside spare)) =
      ((store.newObject properties).1, (store.newObject properties).2.beside spare) := by
  simp [newObject, beside]

/-- An array is changed alike beside a spare scope. -/
theorem modifyArray_beside
    {edit edit' : Array Value → Array Value}
    (commutes : ∀ items,
      edit' (items.map (Value.beside spare)) = (edit items).map (Value.beside spare))
    (store : Store)
    (ref : ArrayRef) :
    (store.beside spare).modifyArray ref edit' = (store.modifyArray ref edit).beside spare := by
  simp only [modifyArray, beside, modify_map_of_commutes commutes]

/-- A property is written alike beside a spare scope. -/
theorem setProperty_beside
    (store : Store)
    (ref : ObjectRef)
    (key : String)
    (value : Value) :
    (store.beside spare).setProperty ref key (value.beside spare) =
      (store.setProperty ref key value).beside spare := by
  refine ext_parts rfl rfl ?_ rfl
  simp only [setProperty, beside]
  exact modify_map_of_commutes fun table => table.insert_map _ key value

variable {store : Store} (fits : spare.index ≤ store.scopes.size)

include fits

/-- The spare scope is at its place, and the others are before or behind it. -/
theorem getElem?_beside
    (index : Nat) :
    (store.beside spare).scopes[index]? =
      if index < spare.index then store.scopes[index]?.map (Scope.beside spare)
      else if index = spare.index then some spare.scope
      else store.scopes[index - 1]?.map (Scope.beside spare) := by
  by_cases here : index = spare.index
  · subst here
    simp [beside, List.getElem?_insertIdx, fits]
  · simp [beside, List.getElem?_insertIdx, here]

/-- A spare scope is one more. -/
@[simp] theorem size_beside :
    (store.beside spare).scopes.size = store.scopes.size + 1 := by
  simp [beside, List.length_insertIdx, fits]

/-! ## Scopes -/

/-- The spare scope is found at its place. -/
theorem scope_spare :
    (store.beside spare).scope ⟨spare.index⟩ = spare.scope := by
  simp [scope, getElem?_beside fits]

theorem getElem?_beside_beside
    (ref : ScopeRef) :
    (store.beside spare).scopes[(ref.beside spare).index]? =
      store.scopes[ref.index]?.map (Scope.beside spare) := by
  rw [getElem?_beside fits]
  by_cases before : ref.index < spare.index
  · rw [ScopeRef.beside_of_lt before, if_pos before]
  · have behind : ¬ ref.index + 1 < spare.index := by omega
    have apart : ¬ ref.index + 1 = spare.index := by omega
    rw [ScopeRef.beside_of_le (Nat.le_of_not_lt before), if_neg behind, if_neg apart]
    rfl

/-- A scope is found at the place that it was moved to. -/
theorem scope_beside
    (ref : ScopeRef) :
    (store.beside spare).scope (ref.beside spare) = (store.scope ref).beside spare := by
  rw [scope, getElem?_beside_beside fits, scope]
  cases store.scopes[ref.index]? <;> rfl

/-- The chain of a scope does not lead through a spare one. -/
theorem chain_beside
    (ref : ScopeRef) :
    (store.beside spare).chain (ref.beside spare) =
      (store.chain ref).map (ScopeRef.beside spare) := by
  simp only [chain, scope_beside fits, List.map_cons]
  rfl

/-! ## Changes of scopes -/

/-- A scope is made alike beside a spare one. -/
theorem newChild_beside
    (parent : ScopeRef) :
    (store.beside spare).newChild (parent.beside spare) =
      ((store.newChild parent).1.beside spare, (store.newChild parent).2.beside spare) := by
  have grown : spare.index ≤ (store.newChild parent).2.scopes.size :=
    Nat.le_trans fits (store.extends_newChild parent).size
  have size := size_beside fits
  refine Prod.ext ?_ (ext_parts ?_ rfl rfl rfl)
  · simp only [newChild, size]
    exact (@ScopeRef.beside_of_le spare ⟨store.scopes.size⟩ fits).symm
  · refine Array.ext_getElem? fun index => ?_
    rw [getElem?_beside grown]
    simp only [newChild, Array.getElem?_push, size, chain_beside fits, getElem?_beside fits]
    by_cases before : index < spare.index
    · have old : index ≠ store.scopes.size := by omega
      have oldBeside : index ≠ store.scopes.size + 1 := by omega
      simp only [if_pos before, if_neg old, if_neg oldBeside]
    by_cases here : index = spare.index
    · have oldBeside : index ≠ store.scopes.size + 1 := by omega
      simp only [if_neg before, if_pos here, if_neg oldBeside]
    · have last : index - 1 = store.scopes.size ↔ index = store.scopes.size + 1 := by omega
      simp only [if_neg before, if_neg here, last]
      split <;> rfl

/-- The bindings of a scope are changed alike beside a spare one. -/
theorem modifyBindings_beside
    {edit edit' : Table Binding → Table Binding}
    (commutes : ∀ bindings,
      edit' (bindings.map (Binding.beside spare)) = (edit bindings).map (Binding.beside spare))
    (ref : ScopeRef) :
    (store.beside spare).modifyBindings (ref.beside spare) edit' =
      (store.modifyBindings ref edit).beside spare := by
  have same : spare.index ≤ (store.modifyBindings ref edit).scopes.size := by
    simpa [modifyBindings] using fits
  have scope : ∀ scope : Scope,
      { scope.beside spare with bindings := edit' (scope.beside spare).bindings } =
        ({ scope with bindings := edit scope.bindings } : Scope).beside spare := by
    intro scope
    simp only [Scope.relocate, commutes]
  refine ext_parts (Array.ext_getElem? fun index => ?_) rfl rfl rfl
  rw [getElem?_beside same]
  simp only [modifyBindings, Array.getElem?_modify, getElem?_beside fits]
  by_cases before : index < spare.index
  · simp only [if_pos before, ScopeRef.index_beside_of_lt spare ref before]
    split
    · simp only [Option.map_map, Function.comp_def, scope]
    · rfl
  by_cases here : index = spare.index
  · subst here
    simp only [if_neg before, if_true, if_neg (ScopeRef.index_beside_ne spare ref)]
  · have behind : spare.index < index := by omega
    simp only [if_neg before, if_neg here, ScopeRef.index_beside_of_gt spare ref behind]
    split
    · simp only [Option.map_map, Function.comp_def, scope]
    · rfl

end Store

/-- A spare scope enlarges a store. -/
def Enlargement.beside (spare : Spare) : Enlargement where
  toRelocation := .beside spare
  enlarge := Store.beside spare
  Fits store := spare.index ≤ store.scopes.size
  fits_of_noSmaller fits larger := Nat.le_trans fits larger.scopes
  output_enlarge _ := rfl
  setOutput_enlarge _ _ := rfl
  disguised {store} _ := store.disguised_beside spare
  scope_enlarge := Store.scope_beside
  newChild_enlarge := Store.newChild_beside
  modifyBindings_enlarge := Store.modifyBindings_beside
  newArray_enlarge {store} _ := store.newArray_beside
  newObject_enlarge {store} _ := store.newObject_beside
  modifyArray_enlarge {store} _ _ _ commutes := Store.modifyArray_beside commutes store
  setProperty_enlarge {store} _ := store.setProperty_beside

end TinyScript
