import TinyScript.Proofs.Store.Recoding

/-!
# Operations on recoded values

The code of functions is a disguise, so operators, member access, the texts of values and the
functions of the library do the same whatever the code of the functions among their operands is.
-/

namespace TinyScript

variable (recoding : Recoding)

/-- Recoded functions differ from what they were by their code only. -/
def Recoding.disguise : Disguise where
  code := Function.recode recoding
  place := id
  array := id
  object := id
  name _ := rfl
  arity function := by simp [Function.recode]
  display := Function.display_recode recoding

/-- To rewrite the code in a value is a disguise. -/
theorem Value.disguise_recoding :
    Value.disguise recoding.disguise = Value.recode recoding := by
  funext value
  induction value with
  | method receiver method ih => simp only [Value.disguise, Value.recode, ih]
  | _ => rfl

theorem Place.disguise_recoding :
    Place.disguise recoding.disguise = id := by
  funext place
  cases place <;> rfl

/-- To rewrite the code in a question is a disguise. -/
theorem Request.disguise_recoding :
    Request.disguise recoding.disguise = Request.recode recoding := by
  funext request
  cases request with
  | host name arguments scope =>
    simp only [Request.disguise, Request.recode, Value.disguise_recoding]
    rfl
  | _ => rfl

/-- What no disguise changes is not changed by recoding. -/
theorem Value.recode_of_disguise
    {value : Value}
    (same : ∀ guise, value.disguise guise = value) :
    value.recode recoding = value := by
  rw [← Value.disguise_recoding, same]

/-- A question that looks the same in every disguise has no code in it. -/
theorem Request.recode_of_disguise
    {request : Request}
    (same : ∀ guise, request.disguise guise = request) :
    request.recode recoding = request := by
  rw [← Request.disguise_recoding, same]

/-- To rewrite the code in an action is a disguise. -/
theorem Action.disguise_recoding :
    Action.disguise recoding.disguise = Action.recode recoding := by
  funext action
  cases action <;>
    simp only [Action.disguise, Action.recode, Value.disguise_recoding,
      Request.disguise_recoding] <;>
    rfl

namespace Store

variable (store : Store)

/-- A store whose code is rewritten is the image of the store. -/
theorem disguised_recode :
    store.Disguised recoding.disguise (store.recode recoding) :=
  .of_map rfl rfl (by rw [Value.disguise_recoding]; rfl) (by rw [Value.disguise_recoding]; rfl)

/-- Code is not shown, but for what is known of a function. -/
@[simp] theorem display_recode
    (value : Value) :
    (store.recode recoding).display (value.recode recoding) = store.display value := by
  rw [← Value.disguise_recoding]
  exact (store.disguised_recode recoding).display value

/-- Code is not written, but for what is known of a function. -/
@[simp] theorem repr_recode
    (value : Value) :
    (store.recode recoding).repr (value.recode recoding) = store.repr value := by
  rw [← Value.disguise_recoding]
  exact (store.disguised_recode recoding).repr value

@[simp] theorem isTruthy_recode
    (value : Value) :
    (store.recode recoding).isTruthy (value.recode recoding) = store.isTruthy value := by
  rw [← Value.disguise_recoding]
  exact (store.disguised_recode recoding).isTruthy value

/-- Operators do the same to rewritten code. -/
theorem binary_recode
    (op : BinaryOp)
    (left right : Value) :
    (store.recode recoding).binary op (left.recode recoding) (right.recode recoding) =
      (store.binary op left right).map (Value.recode recoding) := by
  rw [← Value.disguise_recoding]
  exact (store.disguised_recode recoding).binary op left right

theorem unary_recode
    (op : UnaryOp)
    (operand : Value) :
    (store.recode recoding).unary op (operand.recode recoding) =
      (store.unary op operand).map (Value.recode recoding) := by
  rw [← Value.disguise_recoding]
  exact (store.disguised_recode recoding).unary op operand

/-- A member of a rewritten value is the rewritten member. -/
theorem member_recode
    (subject key : Value) :
    (store.recode recoding).member (subject.recode recoding) (key.recode recoding) =
      (store.member subject key).map (Value.recode recoding) := by
  rw [← Value.disguise_recoding]
  exact (store.disguised_recode recoding).member subject key

/-- Assignments go to the same place. -/
@[simp] theorem place_recode
    (subject key : Value) :
    (store.recode recoding).place (subject.recode recoding) (key.recode recoding) =
      store.place subject key := by
  rw [← Value.disguise_recoding]
  simpa only [Place.disguise_recoding, Except.map_id, id] using
    (store.disguised_recode recoding).place subject key

/-- A rewritten value is put at the same place. -/
theorem put_recode
    (value : Value)
    (place : Place) :
    (store.recode recoding).put (value.recode recoding) place =
      (store.put value place).recode recoding := by
  cases place with
  | item ref index =>
    exact store.modifyArray_recode recoding (fun items => by simp) ref
  | property ref key => exact store.setProperty_recode recoding ref key value

end Store

/-- A function of the library does the same with rewritten arguments. -/
theorem Native.perform_recode
    (native : Native)
    (arguments : List Value)
    (scope : ScopeRef)
    (store : Store) :
    native.perform (arguments.map (Value.recode recoding)) scope (store.recode recoding) =
      (native.perform arguments scope store).map (Action.recode recoding) := by
  rw [← Value.disguise_recoding, ← Action.disguise_recoding]
  exact (store.disguised_recode recoding).perform native arguments scope

/-- A method does the same with a rewritten receiver and rewritten arguments. -/
theorem Method.perform_recode
    (method : Method)
    (receiver : Value)
    (arguments : List Value)
    (store : Store) :
    method.perform (receiver.recode recoding) (arguments.map (Value.recode recoding))
        (store.recode recoding) =
      (method.perform receiver arguments store).map (Action.recode recoding) := by
  rw [← Value.disguise_recoding, ← Action.disguise_recoding]
  exact (store.disguised_recode recoding).performMethod method receiver arguments

end TinyScript
