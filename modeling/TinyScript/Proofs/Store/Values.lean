import TinyScript.Session

/-!
# The values of a store

A property that holds of every value in a store holds of every value read from it,
and it goes on to hold when only values that have it are written.  It need not hold
of the whole store: it is enough if it holds of a region that nothing in it leads
out of.
-/

namespace TinyScript

/-! ## Tables -/

/-- A property holds of every value of a table. -/
def Table.All {α : Type} (p : α → Prop) (table : Table α) : Prop :=
  ∀ entry ∈ table.entries, p entry.2

namespace Table

variable {α : Type} {p : α → Prop} {table : Table α}

/-- Values with a property have every weaker one. -/
theorem All.imp
    {q : α → Prop}
    (all : table.All p)
    (implies : ∀ value, p value → q value) :
    table.All q :=
  fun entry mem => implies entry.2 (all entry mem)

theorem all_empty :
    (empty : Table α).All p :=
  fun _ mem => absurd mem List.not_mem_nil

/-- A value with the property may be inserted. -/
theorem All.insert
    (all : table.All p)
    (key : String)
    {value : α}
    (new : p value) :
    (table.insert key value).All p := by
  obtain ⟨entries⟩ := table
  simp only [All, Table.insert] at all ⊢
  induction entries with
  | nil => simpa [insertEntry] using new
  | cons entry entries ih =>
    rw [List.forall_mem_cons] at all
    rw [insertEntry]
    split
    · exact List.forall_mem_cons.2 ⟨new, all.2⟩
    · exact List.forall_mem_cons.2 ⟨all.1, ih all.2⟩

/-- Values with the property may be inserted one after the other. -/
theorem All.insertAll
    (all : table.All p)
    {pairs : List (String × α)}
    (each : ∀ pair ∈ pairs, p pair.2) :
    (pairs.foldl (fun table pair => table.insert pair.1 pair.2) table).All p := by
  induction pairs generalizing table with
  | nil => exact all
  | cons pair pairs ih =>
    rw [List.forall_mem_cons] at each
    exact ih (all.insert pair.1 each.1) each.2

/-- A table of values with a property is one. -/
theorem all_ofList
    {pairs : List (String × α)}
    (each : ∀ pair ∈ pairs, p pair.2) :
    (ofList pairs).All p :=
  all_empty.insertAll each

/-- A value that is found has the property of all. -/
theorem All.find?
    (all : table.All p)
    {key : String}
    {value : α}
    (found : table.find? key = some value) :
    p value := by
  obtain ⟨entries⟩ := table
  simp only [All, Table.find?] at all found
  induction entries with
  | nil => cases found
  | cons entry entries ih =>
    rw [List.forall_mem_cons] at all
    rw [List.lookup_cons] at found
    split at found
    · cases found
      exact all.1
    · exact ih all.2 found

theorem All.values
    (all : table.All p) :
    ∀ value ∈ table.values, p value := by
  intro value mem
  obtain ⟨entry, entryMem, rfl⟩ := List.mem_map.1 mem
  exact all entry entryMem

end Table

/-! ## Stores -/

/-- A property holds of every value in a store. -/
structure Store.All (p : Value → Prop) (store : Store) : Prop where
  scopes : ∀ scope ∈ store.scopes, scope.bindings.All (p ·.value)
  arrays : ∀ items ∈ store.arrays, ∀ item ∈ items, p item
  objects : ∀ properties ∈ store.objects, properties.All p

/-- Some of the scopes, arrays and objects that there are or will be. -/
structure Region where
  scopes : ScopeRef → Prop
  arrays : ArrayRef → Prop
  objects : ObjectRef → Prop

/-- Everything that there is or will be. -/
def Region.whole : Region where
  scopes _ := True
  arrays _ := True
  objects _ := True

/-- A value does not lead out of a region. -/
def Region.Holds (region : Region) : Value → Prop
  | .array ref => region.arrays ref
  | .object ref => region.objects ref
  | .function _ captured => region.scopes captured
  | .method receiver _ => region.Holds receiver
  | _ => True

theorem Region.holds_whole
    (value : Value) :
    whole.Holds value := by
  induction value with
  | method receiver method ih => exact ih
  | _ => trivial

/-- A property holds of every value in a region of a store.  The scopes around those in the region
are in it as well, and so is everything that will be made. -/
structure Store.AllIn (region : Region) (p : Value → Prop) (store : Store) : Prop where
  bindings : ∀ ref, region.scopes ref → (store.scope ref).bindings.All (p ·.value)
  items : ∀ ref, region.arrays ref → ∀ item ∈ store.array ref, p item
  properties : ∀ ref, region.objects ref → (store.object ref).All p
  around : ∀ ref, region.scopes ref → ∀ outer ∈ (store.scope ref).ancestors, region.scopes outer
  newScopes : ∀ ref : ScopeRef, store.scopes.size ≤ ref.index → region.scopes ref
  newArrays : ∀ ref : ArrayRef, store.arrays.size ≤ ref.index → region.arrays ref
  newObjects : ∀ ref : ObjectRef, store.objects.size ≤ ref.index → region.objects ref

namespace Store

variable {region : Region} {p : Value → Prop} {store : Store}

theorem All.imp
    {q : Value → Prop}
    (all : store.All p)
    (implies : ∀ value, p value → q value) :
    store.All q where
  scopes scope mem := (all.scopes scope mem).imp fun binding => implies binding.value
  arrays items mem item itemMem := implies item (all.arrays items mem item itemMem)
  objects properties mem := (all.objects properties mem).imp implies

/-! ### Arrays of scopes, of arrays and of objects -/

/-- Whatever is found in an array with one more place was found before or is in the new place. -/
theorem of_getD_push
    {α : Type}
    {q : α → Prop}
    {contents : Array α}
    {index : Nat}
    {missing new : α}
    (before : q (contents[index]?.getD missing))
    (ofNew : q new) :
    q ((contents.push new)[index]?.getD missing) := by
  rw [Array.getElem?_push]
  split
  · exact ofNew
  · exact before

/-- Whatever is found in an array with one place changed was found before or is in that place. -/
theorem of_getD_modify
    {α : Type}
    {q : α → Prop}
    {contents : Array α}
    {index : Nat}
    {missing : α}
    (before : q (contents[index]?.getD missing))
    (place : Nat)
    {edit : α → α}
    (kept : ∀ content, q content → q (edit content)) :
    q ((contents.modify place edit)[index]?.getD missing) := by
  rw [Array.getElem?_modify]
  split
  · cases found : contents[index]? with
    | none =>
      rw [found] at before
      exact before
    | some content =>
      rw [found] at before
      exact kept content before
  · exact before

/-! ### Regions -/

/-- A property holds of all values of a store when it holds of those in the whole of it. -/
theorem all_iff_allIn :
    store.All p ↔ store.AllIn .whole p := by
  constructor
  · intro all
    refine ⟨fun ref _ => ?_, fun ref _ => ?_, fun ref _ => ?_, fun _ _ _ _ => trivial,
      fun _ _ => trivial, fun _ _ => trivial, fun _ _ => trivial⟩
    · unfold Store.scope
      cases found : store.scopes[ref.index]? with
      | none => exact Table.all_empty
      | some scope => exact all.scopes scope (Array.mem_of_getElem? found)
    · unfold Store.array
      cases found : store.arrays[ref.index]? with
      | none => simp
      | some items => exact all.arrays items (Array.mem_of_getElem? found)
    · unfold Store.object
      cases found : store.objects[ref.index]? with
      | none => exact Table.all_empty
      | some properties => exact all.objects properties (Array.mem_of_getElem? found)
  · intro all
    refine ⟨fun scope mem => ?_, fun items mem => ?_, fun properties mem => ?_⟩
    · obtain ⟨index, found⟩ := Array.mem_iff_getElem?.1 mem
      have each := all.bindings ⟨index⟩ trivial
      rwa [Store.scope, found] at each
    · obtain ⟨index, found⟩ := Array.mem_iff_getElem?.1 mem
      have each := all.items ⟨index⟩ trivial
      rwa [Store.array, found] at each
    · obtain ⟨index, found⟩ := Array.mem_iff_getElem?.1 mem
      have each := all.properties ⟨index⟩ trivial
      rwa [Store.object, found] at each

namespace AllIn

theorem imp
    {q : Value → Prop}
    (all : store.AllIn region p)
    (implies : ∀ value, p value → q value) :
    store.AllIn region q :=
  { all with
    bindings := fun ref inside => (all.bindings ref inside).imp fun _ => implies _
    items := fun ref inside item mem => implies item (all.items ref inside item mem)
    properties := fun ref inside => (all.properties ref inside).imp implies }

/-- The value of a name in a scope of the region has the property. -/
theorem lookup?
    (all : store.AllIn region p)
    {ref : ScopeRef}
    (inside : region.scopes ref)
    {name : String}
    {value : Value}
    (found : store.lookup? ref name = some value) :
    p value := by
  obtain ⟨binder, mem, bound⟩ := List.exists_of_findSome?_eq_some found
  obtain ⟨binding, bindingFound, rfl⟩ := Option.map_eq_some_iff.1 bound
  have binderInside : region.scopes binder := by
    rcases List.mem_cons.1 mem with rfl | mem
    · exact inside
    · exact all.around ref inside binder mem
  exact (all.bindings binder binderInside).find? bindingFound

/-- An array of items with the property may be made. -/
theorem newArray
    (all : store.AllIn region p)
    {items : Array Value}
    (each : ∀ item ∈ items, p item) :
    (store.newArray items).2.AllIn region p :=
  { all with
    items := fun ref inside =>
      of_getD_push (q := fun items : Array Value => ∀ item ∈ items, p item)
        (all.items ref inside) each
    newArrays := fun ref new =>
      all.newArrays ref (Nat.le_trans (by simp [Store.newArray]) new) }

/-- An object of values with the property may be made. -/
theorem newObject
    (all : store.AllIn region p)
    {properties : Table Value}
    (each : properties.All p) :
    (store.newObject properties).2.AllIn region p :=
  { all with
    properties := fun ref inside => of_getD_push (all.properties ref inside) each
    newObjects := fun ref new =>
      all.newObjects ref (Nat.le_trans (by simp [Store.newObject]) new) }

/-- A scope without a parent brings no values. -/
theorem newRoot
    (all : store.AllIn region p) :
    store.newRoot.2.AllIn region p :=
  { all with
    bindings := fun ref inside =>
      of_getD_push (q := fun scope : Scope => scope.bindings.All (p ·.value))
        (all.bindings ref inside) Table.all_empty
    around := fun ref inside =>
      of_getD_push (q := fun scope : Scope => ∀ outer ∈ scope.ancestors, region.scopes outer)
        (all.around ref inside) (fun _ mem => absurd mem List.not_mem_nil)
    newScopes := fun ref new =>
      all.newScopes ref (Nat.le_trans (by simp [Store.newRoot]) new) }

/-- A scope inside another one brings no values. -/
theorem newChild
    (all : store.AllIn region p)
    {parent : ScopeRef}
    (inside : region.scopes parent) :
    (store.newChild parent).2.AllIn region p :=
  { all with
    bindings := fun ref refInside =>
      of_getD_push (q := fun scope : Scope => scope.bindings.All (p ·.value))
        (all.bindings ref refInside) Table.all_empty
    around := fun ref refInside =>
      of_getD_push (q := fun scope : Scope => ∀ outer ∈ scope.ancestors, region.scopes outer)
        (all.around ref refInside)
        (List.forall_mem_cons.2 ⟨inside, all.around parent inside⟩)
    newScopes := fun ref new =>
      all.newScopes ref (Nat.le_trans (by simp [Store.newChild]) new) }

theorem write
    (all : store.AllIn region p)
    (text : String) :
    (store.write text).AllIn region p :=
  { all with }

theorem writeLine
    (all : store.AllIn region p)
    (line : String) :
    (store.writeLine line).AllIn region p :=
  { all with }

/-- The items of an array may be changed by whatever keeps the property. -/
theorem modifyArray
    (all : store.AllIn region p)
    (ref : ArrayRef)
    {edit : Array Value → Array Value}
    (kept : ∀ items : Array Value, (∀ item ∈ items, p item) → ∀ item ∈ edit items, p item) :
    (store.modifyArray ref edit).AllIn region p :=
  { all with
    items := fun other inside => of_getD_modify (all.items other inside) ref.index kept
    newArrays := fun other new => all.newArrays other (by simpa [Store.modifyArray] using new) }

/-- A value with the property may be written to an object. -/
theorem setProperty
    (all : store.AllIn region p)
    (ref : ObjectRef)
    (key : String)
    {value : Value}
    (new : p value) :
    (store.setProperty ref key value).AllIn region p :=
  { all with
    properties := fun other inside =>
      of_getD_modify (all.properties other inside) ref.index fun _ each => each.insert key new
    newObjects := fun other new => all.newObjects other (by simpa [Store.setProperty] using new) }

/-- A name may be declared with a value that has the property. -/
theorem declare
    (all : store.AllIn region p)
    (ref : ScopeRef)
    (name : String)
    {value : Value}
    (new : p value)
    (constant : Bool) :
    (store.declare ref name value constant).AllIn region p :=
  { all with
    bindings := fun other inside =>
      of_getD_modify (q := fun scope : Scope => scope.bindings.All (p ·.value))
        (all.bindings other inside) ref.index fun _ each => each.insert name new
    around := fun other inside =>
      of_getD_modify (q := fun scope : Scope => ∀ outer ∈ scope.ancestors, region.scopes outer)
        (all.around other inside) ref.index fun _ each => each
    newScopes := fun other new =>
      all.newScopes other (by simpa [Store.declare, Store.modifyBindings] using new) }

/-- A name may be assigned a value that has the property. -/
theorem assign
    (all : store.AllIn region p)
    (ref : ScopeRef)
    (name : String)
    {value : Value}
    (new : p value) :
    (store.assign ref name value).AllIn region p := by
  unfold Store.assign
  split
  · exact all.declare ref name new false
  · split
    · exact all
    · exact all.declare _ name new false

/-- A value with the property may be put at any place. -/
theorem put
    (all : store.AllIn region p)
    {value : Value}
    (new : p value)
    (place : Place) :
    (store.put value place).AllIn region p := by
  cases place with
  | item ref index =>
    refine all.modifyArray ref fun items each item mem => ?_
    obtain ⟨spot, bound, rfl⟩ := Array.mem_iff_getElem.1 mem
    have inside : spot < items.size := by simpa using bound
    rw [Array.getElem_setIfInBounds inside]
    split
    · exact new
    · exact each _ (Array.getElem_mem _)
  | property ref key => exact all.setProperty ref key new

end AllIn
end Store
end TinyScript
