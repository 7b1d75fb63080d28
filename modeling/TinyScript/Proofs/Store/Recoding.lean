import TinyScript.Proofs.Machine.Recoding

/-!
# Stores of recoded code

What is read from a store does not depend on the code of the functions in it.  Each lemma
moves the recoding from what goes into an operation to what comes out of it.
-/

namespace TinyScript

variable (recoding : Recoding)

/-! ## Values -/

namespace Value

/-- A value with rewritten code has the same type. -/
@[simp] theorem typeTag_recode
    (value : Value) :
    (value.recode recoding).typeTag = value.typeTag := by
  cases value <;> rfl

end Value

/-- A parameter with a rewritten default has the same name. -/
@[simp] theorem Parameter.name_recode
    (parameter : Parameter) :
    (parameter.recode recoding).name = parameter.name := by
  cases parameter <;> rfl

/-- The text of a function shows its parameters but none of its code. -/
@[simp] theorem Function.display_recode
    (function : Function) :
    (function.recode recoding).display = function.display := by
  simp only [Function.display, Function.recode, List.map_map]
  congr 4
  funext parameter
  cases parameter <;> rfl

/-! ## The contents of a store -/

namespace Store

variable (store : Store)

/-- The items of an array are rewritten at their places. -/
@[simp] theorem array_recode
    (ref : ArrayRef) :
    (store.recode recoding).array ref = (store.array ref).map (Value.recode recoding) := by
  simp only [array, recode, Array.getElem?_map]
  cases store.arrays[ref.index]? <;> simp

/-- The bindings of a scope are rewritten at their places. -/
@[simp] theorem scope_recode
    (ref : ScopeRef) :
    (store.recode recoding).scope ref = (store.scope ref).recode recoding := by
  simp only [scope, recode, Array.getElem?_map]
  cases store.scopes[ref.index]? <;> rfl

/-- An array of rewritten items gets the same place. -/
theorem newArray_recode
    (items : List Value) :
    (store.recode recoding).newArray (items.map (Value.recode recoding)).toArray =
      ((store.newArray items.toArray).1, (store.newArray items.toArray).2.recode recoding) := by
  simp [newArray, recode]

/-- An object with rewritten properties gets the same place. -/
theorem newObject_recode
    (properties : Table Value) :
    (store.recode recoding).newObject (properties.map (Value.recode recoding)) =
      ((store.newObject properties).1, (store.newObject properties).2.recode recoding) := by
  simp [newObject, recode]

/-- An array is changed alike when its items are rewritten. -/
theorem modifyArray_recode
    {edit edit' : Array Value → Array Value}
    (commutes : ∀ items, edit' (items.map (Value.recode recoding)) =
      (edit items).map (Value.recode recoding))
    (ref : ArrayRef) :
    (store.recode recoding).modifyArray ref edit' =
      (store.modifyArray ref edit).recode recoding := by
  simp only [modifyArray, recode, modify_map_of_commutes commutes]

/-- A rewritten value is written to the same property. -/
theorem setProperty_recode
    (ref : ObjectRef)
    (key : String)
    (value : Value) :
    (store.recode recoding).setProperty ref key (value.recode recoding) =
      (store.setProperty ref key value).recode recoding := by
  simp only [setProperty, recode]
  congr 1
  exact modify_map_of_commutes fun table => table.insert_map _ key value

/-! ## Scopes -/

/-- Scopes with rewritten code have the same chains. -/
@[simp] theorem chain_recode
    (ref : ScopeRef) :
    (store.recode recoding).chain ref = store.chain ref := by
  simp [chain, Scope.recode]

/-- A scope inside another one gets the same place. -/
theorem newChild_recode
    (parent : ScopeRef) :
    (store.recode recoding).newChild parent =
      ((store.newChild parent).1, (store.newChild parent).2.recode recoding) := by
  simp only [newChild, chain_recode]
  simp [recode, Scope.recode]

/-- A name is bound to the rewritten value. -/
@[simp] theorem binding?_recode
    (ref : ScopeRef)
    (name : String) :
    (store.recode recoding).binding? ref name =
      (store.binding? ref name).map (Binding.recode recoding) := by
  simp [binding?, Scope.recode]

/-- The same scope binds a name. -/
@[simp] theorem binder?_recode
    (ref : ScopeRef)
    (name : String) :
    (store.recode recoding).binder? ref name = store.binder? ref name := by
  simp [binder?]

/-- A name has the rewritten value. -/
@[simp] theorem lookup?_recode
    (ref : ScopeRef)
    (name : String) :
    (store.recode recoding).lookup? ref name =
      (store.lookup? ref name).map (Value.recode recoding) := by
  simp only [lookup?, chain_recode, binding?_recode, List.map_findSome?]
  congr 1
  funext ref
  rw [Function.comp_apply, Option.map_map, Option.map_map]
  rfl

@[simp] theorem lookup_recode
    (ref : ScopeRef)
    (name : String) :
    (store.recode recoding).lookup ref name = (store.lookup ref name).recode recoding := by
  simp only [lookup, lookup?_recode]
  cases store.lookup? ref name <;> rfl

/-- The same names are protected. -/
@[simp] theorem isConstant_recode
    (ref : ScopeRef)
    (name : String) :
    (store.recode recoding).isConstant ref name = store.isConstant ref name := by
  simp only [isConstant, binding?_recode]
  cases store.binding? ref name <;> rfl

/-- A rewritten value is declared alike. -/
theorem declare_recode
    (ref : ScopeRef)
    (name : String)
    (value : Value)
    (constant : Bool) :
    (store.recode recoding).declare ref name (value.recode recoding) constant =
      (store.declare ref name value constant).recode recoding := by
  simp only [declare, modifyBindings, isConstant_recode]
  simp only [recode]
  congr 1
  refine modify_map_of_commutes fun scope => ?_
  simp only [Scope.recode, ← Table.insert_map]
  rfl

/-- A rewritten value is assigned alike. -/
theorem assign_recode
    (ref : ScopeRef)
    (name : String)
    (value : Value) :
    (store.recode recoding).assign ref name (value.recode recoding) =
      (store.assign ref name value).recode recoding := by
  simp only [assign, binder?_recode]
  split
  · exact store.declare_recode recoding ref name value false
  · rw [isConstant_recode]
    split
    · rfl
    · exact store.declare_recode recoding _ name value false

end Store
end TinyScript
