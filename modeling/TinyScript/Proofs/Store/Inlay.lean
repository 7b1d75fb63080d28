import TinyScript.Proofs.Store.Alike
import TinyScript.Proofs.Store.Enlarging
import TinyScript.Proofs.Store.Values

/-!
# Stores with an inlay

Arrays and objects that nothing refers to may stand among those of a store:
references to those behind them move up.  What was added to a store is such an
inlay (`IsClosed.around_between`).
-/

namespace TinyScript

/-! ## Items among others -/

section Items

variable {α : Type} {place index size count : Nat} {spare items : Array α}

/-- Items that are put among others at a place. -/
def putAmong (place : Nat) (spare items : Array α) : Array α :=
  items.extract 0 place ++ spare ++ items.extract place

/-- The place that an index moves to when items are put in. -/
def moveUp (place count index : Nat) : Nat :=
  if index < place then index else index + count

/-- What lies behind the place is moved up. -/
theorem moveUp_of_le
    (behind : place ≤ index)
    (count : Nat) :
    moveUp place count index = index + count :=
  if_neg (Nat.not_lt_of_le behind)

/-- What is known where it was is known where it moves to. -/
theorem moveUp_lt_iff
    (fits : place ≤ size) :
    moveUp place count index < size + count ↔ index < size := by
  unfold moveUp
  split <;> omega

section Fitting

variable (fits : place ≤ items.size)

include fits

/-- What is found at an index, among the items or where they were put in. -/
theorem getElem?_putAmong
    (index : Nat) :
    (putAmong place spare items)[index]? =
      if index < place then items[index]?
      else if index < place + spare.size then spare[index - place]?
      else items[index - spare.size]? := by
  unfold putAmong
  grind

/-- All items of both arrays are in the new one. -/
theorem size_putAmong :
    (putAmong place spare items).size = items.size + spare.size := by
  unfold putAmong
  grind

/-- What was found at an index is found where the index moves to. -/
theorem getElem?_putAmong_moveUp
    (index : Nat) :
    (putAmong place spare items)[moveUp place spare.size index]? = items[index]? := by
  rw [getElem?_putAmong fits, moveUp]
  grind

/-- An item at the end stays there. -/
theorem putAmong_push
    (last : α) :
    putAmong place spare (items.push last) = (putAmong place spare items).push last := by
  have places : place ≤ (items.push last).size := by grind
  refine Array.ext_getElem? fun spot => ?_
  rw [Array.getElem?_push, getElem?_putAmong fits, getElem?_putAmong places, size_putAmong fits]
  grind

/-- An item is changed where it moves to. -/
theorem modify_putAmong
    (index : Nat)
    (edit : α → α) :
    (putAmong place spare items).modify (moveUp place spare.size index) edit =
      putAmong place spare (items.modify index edit) := by
  have places : place ≤ (items.modify index edit).size := by simpa using fits
  refine Array.ext_getElem? fun spot => ?_
  rw [Array.getElem?_modify, getElem?_putAmong fits, getElem?_putAmong places,
    Array.getElem?_modify, Array.getElem?_modify]
  unfold moveUp
  grind

end Fitting

/-- What follows the items of an array in a longer one is what was put behind them. -/
theorem putAmong_extract
    {more : Array α}
    (longer : items.size ≤ more.size)
    (same : ∀ index < items.size, more[index]? = items[index]?) :
    putAmong items.size (more.extract items.size) items = more := by
  refine Array.ext_getElem? fun spot => ?_
  rw [getElem?_putAmong (Nat.le_refl _)]
  grind

end Items

/-! ## References past an inlay -/

/-- Arrays and objects that are put among those of a store, and their places there. -/
structure Inlay where
  arraysAt : Nat
  arrays : Array (Array Value)
  objectsAt : Nat
  objects : Array (Table Value)

variable (inlay : Inlay)

/-- The reference to an array around an inlay. -/
def ArrayRef.around (ref : ArrayRef) : ArrayRef :=
  ⟨moveUp inlay.arraysAt inlay.arrays.size ref.index⟩

/-- The reference to an object around an inlay. -/
def ObjectRef.around (ref : ObjectRef) : ObjectRef :=
  ⟨moveUp inlay.objectsAt inlay.objects.size ref.index⟩

/-- The places around an inlay. -/
def Relocation.around : Relocation where
  scope := id
  array := ArrayRef.around inlay
  object := ObjectRef.around inlay

/-- A value around an inlay. -/
abbrev Value.around : Value → Value :=
  Value.relocate (.around inlay)

/-- A binding around an inlay. -/
abbrev Binding.around : Binding → Binding :=
  Binding.relocate (.around inlay)

/-- A scope around an inlay. -/
abbrev Scope.around : Scope → Scope :=
  Scope.relocate (.around inlay)

/-- A store with an inlay. -/
def Store.around (store : Store) : Store :=
  { scopes := store.scopes.map (Scope.around inlay)
    arrays :=
      putAmong inlay.arraysAt inlay.arrays (store.arrays.map (Array.map (Value.around inlay)))
    objects :=
      putAmong inlay.objectsAt inlay.objects (store.objects.map (Table.map (Value.around inlay)))
    output := store.output }

/-- The places of an inlay are among the arrays and objects of a store, or just behind them. -/
structure Inlay.Fits (store : Store) : Prop where
  arrays : inlay.arraysAt ≤ store.arrays.size
  objects : inlay.objectsAt ≤ store.objects.size

variable {inlay}

/-- An inlay that fits a store fits every one that is no smaller. -/
theorem Inlay.Fits.grow
    {store later : Store}
    (fits : inlay.Fits store)
    (larger : later.NoSmaller store) :
    inlay.Fits later :=
  ⟨Nat.le_trans fits.arrays larger.arrays, Nat.le_trans fits.objects larger.objects⟩

namespace Store

variable {store : Store}

/-! ## Scopes -/

/-- The scopes of a store stay at their places around an inlay. -/
theorem scope_around
    (ref : ScopeRef) :
    (store.around inlay).scope ref = (store.scope ref).around inlay := by
  simp only [scope, around, Array.getElem?_map]
  cases store.scopes[ref.index]? <;> rfl

/-- A scope is made alike around an inlay. -/
theorem newChild_around
    (parent : ScopeRef) :
    (store.around inlay).newChild parent =
      ((store.newChild parent).1, (store.newChild parent).2.around inlay) := by
  have ancestors : (store.around inlay).chain parent = (store.chain parent).map id := by
    simp only [chain, scope_around]
    rfl
  simp only [newChild, ancestors]
  simp [around, Scope.relocate, Relocation.around]

/-- The bindings of a scope are changed alike around an inlay. -/
theorem modifyBindings_around
    {edit edit' : Table Binding → Table Binding}
    (commutes : ∀ bindings,
      edit' (bindings.map (Binding.around inlay)) = (edit bindings).map (Binding.around inlay))
    (ref : ScopeRef) :
    (store.around inlay).modifyBindings ref edit' =
      (store.modifyBindings ref edit).around inlay := by
  have scope : ∀ scope : Scope,
      { scope.around inlay with bindings := edit' (scope.around inlay).bindings } =
        ({ scope with bindings := edit scope.bindings } : Scope).around inlay := by
    intro scope
    simp only [Scope.relocate, commutes]
  refine ext_parts ?_ rfl rfl rfl
  simp only [modifyBindings, around]
  exact modify_map_of_commutes scope

/-! ## Arrays and objects -/

section Fitting

variable (fits : inlay.Fits store)

include fits

theorem fits_arrays :
    inlay.arraysAt ≤ (store.arrays.map (Array.map (Value.around inlay))).size := by
  simpa using fits.arrays

theorem fits_objects :
    inlay.objectsAt ≤ (store.objects.map (Table.map (Value.around inlay))).size := by
  simpa using fits.objects

/-- An array is found where it was moved to, with items that were moved. -/
theorem array_around
    (ref : ArrayRef) :
    (store.around inlay).array (ref.around inlay) =
      (store.array ref).map (Value.around inlay) := by
  simp only [array, around, ArrayRef.around, getElem?_putAmong_moveUp (fits_arrays fits),
    Array.getElem?_map]
  cases store.arrays[ref.index]? with
  | none => exact Array.map_empty.symm
  | some items => rfl

/-- An object is found where it was moved to, with properties that were moved. -/
theorem object_around
    (ref : ObjectRef) :
    (store.around inlay).object (ref.around inlay) =
      (store.object ref).map (Value.around inlay) := by
  simp only [object, around, ObjectRef.around, getElem?_putAmong_moveUp (fits_objects fits),
    Array.getElem?_map]
  cases store.objects[ref.index]? <;> rfl

/-- A store around an inlay is the image of the store. -/
theorem disguised_around :
    store.Disguised (Relocation.around inlay).disguise (store.around inlay) where
  array := array_around fits
  object := object_around fits
  knownArray ref := by
    simp only [around, size_putAmong (fits_arrays fits), Array.size_map]
    exact moveUp_lt_iff fits.arrays
  knownObject ref := by
    simp only [around, size_putAmong (fits_objects fits), Array.size_map]
    exact moveUp_lt_iff fits.objects

/-- An array is made alike around an inlay, behind those that are there. -/
theorem newArray_around
    (items : Array Value) :
    (store.around inlay).newArray (items.map (Value.around inlay)) =
      ((store.newArray items).1.around inlay, (store.newArray items).2.around inlay) := by
  simp only [newArray, around, ArrayRef.around, Array.map_push, putAmong_push (fits_arrays fits),
    size_putAmong (fits_arrays fits), moveUp_of_le fits.arrays, Array.size_map]

/-- An object is made alike around an inlay, behind those that are there. -/
theorem newObject_around
    (properties : Table Value) :
    (store.around inlay).newObject (properties.map (Value.around inlay)) =
      ((store.newObject properties).1.around inlay,
        (store.newObject properties).2.around inlay) := by
  simp only [newObject, around, ObjectRef.around, Array.map_push,
    putAmong_push (fits_objects fits), size_putAmong (fits_objects fits),
    moveUp_of_le fits.objects, Array.size_map]

/-- An array is changed alike around an inlay. -/
theorem modifyArray_around
    {edit edit' : Array Value → Array Value}
    (commutes : ∀ items,
      edit' (items.map (Value.around inlay)) = (edit items).map (Value.around inlay))
    (ref : ArrayRef) :
    (store.around inlay).modifyArray (ref.around inlay) edit' =
      (store.modifyArray ref edit).around inlay := by
  simp only [modifyArray, around, ArrayRef.around, modify_putAmong (fits_arrays fits),
    modify_map_of_commutes commutes]

/-- A property is written alike around an inlay. -/
theorem setProperty_around
    (ref : ObjectRef)
    (key : String)
    (value : Value) :
    (store.around inlay).setProperty (ref.around inlay) key (value.around inlay) =
      (store.setProperty ref key value).around inlay := by
  refine ext_parts rfl rfl ?_ rfl
  simp only [setProperty, around, ObjectRef.around, modify_putAmong (fits_objects fits)]
  exact congrArg (putAmong _ _) (modify_map_of_commutes fun table => table.insert_map _ key value)

end Fitting
end Store

/-- An inlay enlarges a store. -/
def Enlargement.around (inlay : Inlay) : Enlargement where
  toRelocation := .around inlay
  enlarge := Store.around inlay
  Fits := inlay.Fits
  fits_of_noSmaller fits larger := fits.grow larger
  output_enlarge _ := rfl
  setOutput_enlarge _ _ := rfl
  disguised := Store.disguised_around
  scope_enlarge {_} _ := Store.scope_around
  newChild_enlarge {_} _ := Store.newChild_around
  modifyBindings_enlarge {_} _ := Store.modifyBindings_around
  newArray_enlarge := Store.newArray_around
  newObject_enlarge := Store.newObject_around
  modifyArray_enlarge := Store.modifyArray_around
  setProperty_enlarge := Store.setProperty_around

/-! ## What has been made since -/

/-- The arrays and objects that a value refers to are in a store. -/
def Value.IsIn (store : Store) : Value → Prop
  | .array ref => ref.index < store.arrays.size
  | .object ref => ref.index < store.objects.size
  | .method receiver _ => receiver.IsIn store
  | _ => True

/-- Nothing in a store refers to an array or object that is not there. -/
def Store.IsClosed (store : Store) : Prop :=
  store.All (Value.IsIn store)

/-- The arrays and objects that a later store has behind those of an earlier one. -/
def Inlay.between (store later : Store) : Inlay where
  arraysAt := store.arrays.size
  arrays := later.arrays.extract store.arrays.size
  objectsAt := store.objects.size
  objects := later.objects.extract store.objects.size

namespace Store

variable {store later : Store}

/-- What a later store has more fits behind the earlier one. -/
theorem fits_between :
    (Inlay.between store later).Fits store :=
  ⟨Nat.le_refl _, Nat.le_refl _⟩

/-- A value that leads into the earlier store is not moved. -/
theorem around_of_isIn
    {value : Value}
    (isIn : value.IsIn store) :
    value.around (.between store later) = value := by
  induction value with
  | array ref => exact congrArg Value.array (congrArg ArrayRef.mk (if_pos isIn))
  | object ref => exact congrArg Value.object (congrArg ObjectRef.mk (if_pos isIn))
  | method receiver member ih => exact congrArg (Value.method · member) (ih isIn)
  | _ => rfl

/-- The arrays of a store stand in front of those that have been added. -/
theorem Includes.getElem?_arrays
    (grown : later.Includes store) :
    ∀ index < store.arrays.size, later.arrays[index]? = store.arrays[index]? := by
  intro index before
  have behind : index < later.arrays.size := Nat.lt_of_lt_of_le before grown.arrays
  simpa [Store.array, before, behind] using grown.array ⟨index⟩ before

/-- The objects of a store stand in front of those that have been added. -/
theorem Includes.getElem?_objects
    (grown : later.Includes store) :
    ∀ index < store.objects.size, later.objects[index]? = store.objects[index]? := by
  intro index before
  have behind : index < later.objects.size := Nat.lt_of_lt_of_le before grown.objects
  simpa [Store.object, before, behind] using grown.object ⟨index⟩ before

/-- A store that arrays and objects have been added to is the one before with these as an inlay. -/
theorem IsClosed.around_between
    (closed : store.IsClosed)
    (grown : later.Includes store)
    (silent : later.output = store.output) :
    store.around (.between store later) = later := by
  have scopes : store.scopes.map (Scope.around (.between store later)) = later.scopes := by
    rw [grown.scopes]
    refine (Array.map_congr_left fun scope mem => ?_).trans (Array.map_id _)
    have bindings : ∀ entry ∈ scope.bindings.entries,
        entry.2.around (.between store later) = entry.2 := fun entry entryMem =>
      congrArg (fun value => ({ entry.2 with value := value } : Binding))
        (around_of_isIn (closed.scopes scope mem entry entryMem))
    have ancestors : scope.ancestors.map id = scope.ancestors := List.map_id _
    exact congrArg₂ Scope.mk ancestors (Table.map_of_forall bindings)
  have arrays :
      store.arrays.map (Array.map (Value.around (.between store later))) = store.arrays := by
    refine (Array.map_congr_left fun items mem => ?_).trans (Array.map_id _)
    refine (Array.map_congr_left fun item itemMem => ?_).trans (Array.map_id _)
    exact around_of_isIn (closed.arrays items mem item itemMem)
  have objects :
      store.objects.map (Table.map (Value.around (.between store later))) = store.objects := by
    refine (Array.map_congr_left fun properties mem => ?_).trans (Array.map_id _)
    exact Table.map_of_forall fun entry entryMem =>
      around_of_isIn (closed.objects properties mem entry entryMem)
  refine ext_parts scopes ?_ ?_ silent.symm
  · simp only [around, arrays]
    exact putAmong_extract grown.arrays grown.getElem?_arrays
  · simp only [around, objects]
    exact putAmong_extract grown.objects grown.getElem?_objects

end Store
end TinyScript
