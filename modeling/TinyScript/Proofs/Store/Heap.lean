import TinyScript.Proofs.Store.Disguise

/-!
# Arrays and objects

Operators, member access, the texts of values and the functions of the library look at the
arrays and objects of a store, and neither at its scopes nor at its output.
-/

namespace TinyScript

/-- The disguise that changes nothing. -/
def Disguise.none : Disguise where
  code := id
  place := id
  array := id
  object := id
  name _ := rfl
  arity _ := rfl
  display _ := rfl

@[simp] theorem Disguise.place_none :
    none.place = id :=
  rfl

@[simp] theorem Disguise.array_none :
    none.array = id :=
  rfl

/-- No disguise leaves a value as it is. -/
@[simp] theorem Value.disguise_none :
    Value.disguise .none = id := by
  funext value
  induction value with
  | method receiver method ih => rw [Value.disguise, ih, id, id]
  | _ => rfl

/-- No disguise leaves a place as it is. -/
@[simp] theorem Place.disguise_none :
    Place.disguise .none = id := by
  funext place
  cases place <;> rfl

/-- No disguise leaves a question as it is. -/
@[simp] theorem Request.disguise_none :
    Request.disguise .none = id := by
  funext request
  cases request <;> simp [Request.disguise]

/-- No disguise leaves an action as it is. -/
@[simp] theorem Action.disguise_none :
    Action.disguise .none = id := by
  funext action
  cases action <;> simp [Action.disguise]

/-- Two stores have the same arrays and objects. -/
structure Store.SameHeap (later store : Store) : Prop where
  arrays : later.arrays = store.arrays
  objects : later.objects = store.objects

namespace Store.SameHeap

variable {store later : Store} (same : later.SameHeap store)

include same

/-- A store with the same arrays and objects is the image of another one without any disguise. -/
theorem disguised :
    store.Disguised .none later :=
  .of_map rfl rfl (by simp [same.arrays]) (by simp [same.objects])

/-- Values are shown by means of arrays and objects only. -/
theorem display :
    later.display = store.display := by
  funext value
  simpa using same.disguised.display value

/-- Values are written by means of arrays and objects only. -/
theorem repr :
    later.repr = store.repr := by
  funext value
  simpa using same.disguised.repr value

/-- Whether a value counts as true depends on arrays and objects only. -/
theorem isTruthy
    (value : Value) :
    later.isTruthy value = store.isTruthy value := by
  simpa using same.disguised.isTruthy value

/-- What an operator gives depends on arrays and objects only. -/
theorem binary
    (op : BinaryOp)
    (left right : Value) :
    later.binary op left right = store.binary op left right := by
  simpa using same.disguised.binary op left right

theorem unary
    (op : UnaryOp)
    (operand : Value) :
    later.unary op operand = store.unary op operand := by
  simpa using same.disguised.unary op operand

/-- Members of a value depend on arrays and objects only. -/
theorem member
    (subject key : Value) :
    later.member subject key = store.member subject key := by
  simpa using same.disguised.member subject key

/-- Where an assignment goes depends on arrays and objects only. -/
theorem place
    (subject key : Value) :
    later.place subject key = store.place subject key := by
  simpa using same.disguised.place subject key

/-- What a function of the library does depends on arrays and objects only. -/
theorem perform
    (native : Native)
    (arguments : List Value)
    (scope : ScopeRef) :
    native.perform arguments scope later = native.perform arguments scope store := by
  have performs := same.disguised.perform native arguments scope
  simpa using performs

/-- What a method does depends on arrays and objects only. -/
theorem performMethod
    (method : Method)
    (receiver : Value)
    (arguments : List Value) :
    method.perform receiver arguments later = method.perform receiver arguments store := by
  simpa using same.disguised.performMethod method receiver arguments

end Store.SameHeap
end TinyScript
