import TinyScript.Proofs.Store.Disguise
import TinyScript.Proofs.Store.Growth

/-!
# Stores that are enlarged

Scopes, arrays and objects that nothing refers to may stand among those of a store.  The others
move up to make room for them, and so do the references to these.  Whatever is read from a store
is read from the enlarged one, and whatever is done to a store is done to the enlarged one: it is
enough to know this of the single scopes, arrays and objects (`Enlargement`).
-/

namespace TinyScript

/-! ## References to other places -/

/-- The places of scopes, arrays and objects in another store. -/
structure Relocation where
  scope : ScopeRef → ScopeRef
  array : ArrayRef → ArrayRef
  object : ObjectRef → ObjectRef

/-- Where something stands does not show. -/
def Relocation.disguise (relocation : Relocation) : Disguise where
  code function := function
  place := relocation.scope
  array := relocation.array
  object := relocation.object
  name _ := rfl
  arity _ := rfl
  display _ := rfl

/-- A value whose references are to the other places. -/
abbrev Value.relocate (relocation : Relocation) : Value → Value :=
  Value.disguise relocation.disguise

/-- A binding whose references are to the other places. -/
def Binding.relocate (relocation : Relocation) (binding : Binding) : Binding :=
  { binding with value := binding.value.relocate relocation }

/-- A scope whose references are to the other places. -/
def Scope.relocate (relocation : Relocation) (scope : Scope) : Scope :=
  { ancestors := scope.ancestors.map relocation.scope
    bindings := scope.bindings.map (Binding.relocate relocation) }

/-! ## Enlargements -/

/-- Two stores are the same if their parts are. -/
theorem Store.ext_parts
    {store later : Store}
    (scopes : later.scopes = store.scopes)
    (arrays : later.arrays = store.arrays)
    (objects : later.objects = store.objects)
    (output : later.output = store.output) :
    later = store := by
  cases store
  cases later
  cases scopes
  cases arrays
  cases objects
  cases output
  rfl

/-- A store has at least as many scopes, arrays and objects as another one. -/
structure Store.NoSmaller (later store : Store) : Prop where
  scopes : store.scopes.size ≤ later.scopes.size
  arrays : store.arrays.size ≤ later.arrays.size
  objects : store.objects.size ≤ later.objects.size

/-- A way to enlarge stores by scopes, arrays and objects that nothing refers to, together with
what a single scope, array or object has to do with its place in the enlarged store. -/
structure Enlargement extends Relocation where
  enlarge : Store → Store
  /-- A store has the places where something is put. -/
  Fits : Store → Prop
  fits_of_noSmaller : ∀ {store later}, Fits store → later.NoSmaller store → Fits later
  output_enlarge : ∀ store, (enlarge store).output = store.output
  setOutput_enlarge : ∀ store output,
    { enlarge store with output := output } = enlarge { store with output := output }
  disguised : ∀ {store}, Fits store → store.Disguised toRelocation.disguise (enlarge store)
  scope_enlarge : ∀ {store}, Fits store → ∀ ref,
    (enlarge store).scope (scope ref) = (store.scope ref).relocate toRelocation
  newChild_enlarge : ∀ {store}, Fits store → ∀ parent,
    (enlarge store).newChild (scope parent) =
      (scope (store.newChild parent).1, enlarge (store.newChild parent).2)
  modifyBindings_enlarge : ∀ {store}, Fits store → ∀ {edit edit' : Table Binding → Table Binding},
    (∀ bindings, edit' (bindings.map (Binding.relocate toRelocation)) =
      (edit bindings).map (Binding.relocate toRelocation)) →
    ∀ ref, (enlarge store).modifyBindings (scope ref) edit' =
      enlarge (store.modifyBindings ref edit)
  newArray_enlarge : ∀ {store}, Fits store → ∀ items : Array Value,
    (enlarge store).newArray (items.map (Value.relocate toRelocation)) =
      (array (store.newArray items).1, enlarge (store.newArray items).2)
  newObject_enlarge : ∀ {store}, Fits store → ∀ properties : Table Value,
    (enlarge store).newObject (properties.map (Value.relocate toRelocation)) =
      (object (store.newObject properties).1, enlarge (store.newObject properties).2)
  modifyArray_enlarge : ∀ {store}, Fits store → ∀ {edit edit' : Array Value → Array Value},
    (∀ items, edit' (items.map (Value.relocate toRelocation)) =
      (edit items).map (Value.relocate toRelocation)) →
    ∀ ref, (enlarge store).modifyArray (array ref) edit' = enlarge (store.modifyArray ref edit)
  setProperty_enlarge : ∀ {store}, Fits store → ∀ ref key value,
    (enlarge store).setProperty (object ref) key (Value.relocate toRelocation value) =
      enlarge (store.setProperty ref key value)

namespace Enlargement

/-! ## Enlarged stores that stay large enough -/

section Growth

variable {larger : Enlargement} {store : Store} (fits : larger.Fits store)

include fits

/-- A store with one more scope still fits. -/
theorem fits_newChild
    (parent : ScopeRef) :
    larger.Fits (store.newChild parent).2 :=
  larger.fits_of_noSmaller fits ⟨by simp, Nat.le_refl _, Nat.le_refl _⟩

/-- A store with one more binding still fits. -/
theorem fits_declare
    (ref : ScopeRef)
    (name : String)
    (value : Value)
    (constant : Bool) :
    larger.Fits (store.declare ref name value constant) :=
  larger.fits_of_noSmaller fits ⟨by simp, Nat.le_refl _, Nat.le_refl _⟩

/-- A store with other items in an array still fits. -/
theorem fits_modifyArray
    (ref : ArrayRef)
    (edit : Array Value → Array Value) :
    larger.Fits (store.modifyArray ref edit) :=
  larger.fits_of_noSmaller fits ⟨Nat.le_refl _, by simp [Store.modifyArray], Nat.le_refl _⟩

end Growth

variable (larger : Enlargement)

/-! ## Output -/

/-- The same text is written to the output. -/
theorem write_enlarge
    (store : Store)
    (text : String) :
    (larger.enlarge store).write text = larger.enlarge (store.write text) := by
  rw [Store.write, larger.output_enlarge, larger.setOutput_enlarge]
  rfl

theorem writeLine_enlarge
    (store : Store)
    (line : String) :
    (larger.enlarge store).writeLine line = larger.enlarge (store.writeLine line) := by
  rw [Store.writeLine, larger.output_enlarge, larger.setOutput_enlarge]
  rfl

variable {larger} {store : Store} (fits : larger.Fits store)

include fits

/-! ## Names -/

/-- The chain of a scope leads through the corresponding scopes, and through no others. -/
theorem chain_enlarge
    (ref : ScopeRef) :
    (larger.enlarge store).chain (larger.scope ref) = (store.chain ref).map larger.scope := by
  simp only [Store.chain, larger.scope_enlarge fits, Scope.relocate, List.map_cons]

/-- The corresponding scope binds a name to the corresponding value. -/
theorem binding?_enlarge
    (ref : ScopeRef)
    (name : String) :
    (larger.enlarge store).binding? (larger.scope ref) name =
      (store.binding? ref name).map (Binding.relocate larger.toRelocation) := by
  simp only [Store.binding?, larger.scope_enlarge fits, Scope.relocate, Table.find?_map]

/-- The first scope that binds a name is the corresponding one. -/
theorem binder?_enlarge
    (ref : ScopeRef)
    (name : String) :
    (larger.enlarge store).binder? (larger.scope ref) name =
      (store.binder? ref name).map larger.scope := by
  simp only [Store.binder?, chain_enlarge fits, List.find?_map, Function.comp_def,
    binding?_enlarge fits, Option.isSome_map]

/-- A name has the corresponding value. -/
theorem lookup?_enlarge
    (ref : ScopeRef)
    (name : String) :
    (larger.enlarge store).lookup? (larger.scope ref) name =
      (store.lookup? ref name).map (Value.relocate larger.toRelocation) := by
  simp only [Store.lookup?, chain_enlarge fits, List.findSome?_map, List.map_findSome?]
  congr 1
  funext ref
  simp only [Function.comp_apply, binding?_enlarge fits, Option.map_map]
  rfl

/-- A name has the corresponding value, or none. -/
theorem lookup_enlarge
    (ref : ScopeRef)
    (name : String) :
    (larger.enlarge store).lookup (larger.scope ref) name =
      (store.lookup ref name).relocate larger.toRelocation := by
  rw [Store.lookup, lookup?_enlarge fits, Store.lookup]
  cases store.lookup? ref name <;> rfl

/-- The corresponding scope protects the same names. -/
theorem isConstant_enlarge
    (ref : ScopeRef)
    (name : String) :
    (larger.enlarge store).isConstant (larger.scope ref) name = store.isConstant ref name := by
  rw [Store.isConstant, binding?_enlarge fits, Store.isConstant]
  cases store.binding? ref name <;> rfl

/-- A declaration binds a name in the corresponding scope. -/
theorem declare_enlarge
    (ref : ScopeRef)
    (name : String)
    (value : Value)
    (constant : Bool) :
    (larger.enlarge store).declare (larger.scope ref) name (value.relocate larger.toRelocation)
        constant =
      larger.enlarge (store.declare ref name value constant) := by
  simp only [Store.declare, isConstant_enlarge fits]
  refine larger.modifyBindings_enlarge fits (fun bindings => ?_) ref
  rw [← Table.insert_map]
  rfl

/-- An assignment changes the corresponding scope. -/
theorem assign_enlarge
    (ref : ScopeRef)
    (name : String)
    (value : Value) :
    (larger.enlarge store).assign (larger.scope ref) name (value.relocate larger.toRelocation) =
      larger.enlarge (store.assign ref name value) := by
  simp only [Store.assign, binder?_enlarge fits]
  cases store.binder? ref name with
  | none => exact declare_enlarge fits ref name value false
  | some binder =>
    simp only [Option.map_some, isConstant_enlarge fits]
    split
    · rfl
    · exact declare_enlarge fits binder name value false

/-- The arguments of a call are bound in the corresponding scope. -/
theorem bindArguments_enlarge
    (scope : ScopeRef)
    (parameters : List Parameter)
    (arguments : List Value) :
    Machine.bindArguments (larger.enlarge store) (larger.scope scope) parameters
        (arguments.map (Value.relocate larger.toRelocation)) =
      larger.enlarge (Machine.bindArguments store scope parameters arguments) := by
  induction parameters generalizing store arguments with
  | nil => cases arguments <;> rfl
  | cons parameter parameters ih =>
    cases arguments with
    | nil => rfl
    | cons argument arguments =>
      simp only [List.map_cons, Machine.bindArguments, declare_enlarge fits,
        ih (fits_declare fits _ _ _ _)]

/-! ## Arrays and objects -/

/-- A value is written to the corresponding place. -/
theorem put_enlarge
    (value : Value)
    (place : Place) :
    (larger.enlarge store).put (value.relocate larger.toRelocation)
        (place.disguise larger.toRelocation.disguise) =
      larger.enlarge (store.put value place) := by
  cases place with
  | item ref index => exact larger.modifyArray_enlarge fits (fun items => by simp) ref
  | property ref key => exact larger.setProperty_enlarge fits ref key value

end Enlargement
end TinyScript
