import TinyScript.Proofs.Store.Operations

/-!
# Steps of recoded machines

A machine whose code is recoded takes the same steps, where it does not come to a `return`
behind which statements are left out, and ends in the same way but for the places of its
faults.
-/

namespace TinyScript
namespace Machine

variable (recoding : Recoding) (m : Machine)

/-! ## Expressions -/

theorem give_recode
    (value : Value) :
    (m.recode recoding).give (value.recode recoding) = (m.give value).recode recoding :=
  rfl

theorem giveOrFail_recode
    (position : Position)
    (result : Except Fault.Cause Value) :
    (m.recode recoding).giveOrFail (recoding.move position) (result.map (Value.recode recoding)) =
      (m.giveOrFail position result).recode recoding := by
  cases result <;> rfl

/-- The placeholders of a text mean the same in rewritten code. -/
theorem meaning?_recode :
    (m.recode recoding).meaning? = m.meaning? := by
  funext name
  simp only [meaning?, recode, Store.lookup?_recode, Option.map_map]
  congr 1
  funext value
  exact m.store.display_recode recoding value

theorem evaluateItems_recode
    (done : List Value)
    (items : List Expr) :
    (m.recode recoding).evaluateItems (done.map (Value.recode recoding))
        (items.map (Expr.recode recoding)) =
      (m.evaluateItems done items).recode recoding := by
  cases items with
  | nil =>
    simp only [List.map_nil, evaluateItems, ← List.map_reverse, recode,
      Store.newArray_recode]
    rfl
  | cons item items => rfl

theorem evaluateFields_recode
    (done : Table Value)
    (fields : List Field) :
    (m.recode recoding).evaluateFields (done.map (Value.recode recoding))
        (fields.map (Field.recode recoding)) =
      (m.evaluateFields done fields).recode recoding := by
  cases fields with
  | nil =>
    simp only [List.map_nil, evaluateFields, recode, Store.newObject_recode]
    rfl
  | cons field fields =>
    cases field
    rfl

theorem evaluateArguments_recode
    (position : Position)
    (callee : Value)
    (done : List Value)
    (arguments : List Expr) :
    (m.recode recoding).evaluateArguments (recoding.move position) (callee.recode recoding)
        (done.map (Value.recode recoding)) (arguments.map (Expr.recode recoding)) =
      (m.evaluateArguments position callee done arguments).recode recoding := by
  cases arguments with
  | nil => simp [evaluateArguments, recode, Control.recode]
  | cons argument arguments => rfl

theorem evaluateShown_recode
    (done : List String)
    (values : List Expr) :
    (m.recode recoding).evaluateShown done (values.map (Expr.recode recoding)) =
      (m.evaluateShown done values).recode recoding := by
  cases values <;> rfl

/-- A variable is counted up or down alike in rewritten code. -/
theorem stepName_recode
    (position : Position)
    (side : StepSide)
    (op : StepOp)
    (name : String) :
    (m.recode recoding).stepName (recoding.move position) side op name =
      (m.stepName position side op name).recode recoding := by
  have found :
      (m.recode recoding).store.lookup m.scope name =
        (m.store.lookup m.scope name).recode recoding :=
    m.store.lookup_recode recoding m.scope name
  have sameScope : (m.recode recoding).scope = m.scope := rfl
  unfold stepName
  rw [sameScope, found]
  cases m.store.lookup m.scope name with
  | number old =>
    have assigned := fun new : Float => m.store.assign_recode recoding m.scope name (.number new)
    simp only [Value.recode] at assigned ⊢
    simp only [recode, assigned, Control.recode, Value.recode]
  | _ => rfl

/-- A rewritten function is bound to the same name. -/
theorem makeFunction_recode
    (function : Function) :
    (m.recode recoding).makeFunction (function.recode recoding) =
      (m.makeFunction function).recode recoding := by
  have sameName : (function.recode recoding).name = function.name := rfl
  unfold makeFunction
  rw [sameName]
  cases function.name with
  | none => rfl
  | some name =>
    have declared :=
      m.store.declare_recode recoding m.scope name (.function function m.scope) true
    simp only [Value.recode] at declared
    simp only [recode, declared, Control.recode, Value.recode]

/-- The evaluation of a rewritten expression begins like that of the other one. -/
theorem evaluate_recode
    (expr : Expr) :
    (m.recode recoding).evaluate (expr.recode recoding) = (m.evaluate expr).recode recoding := by
  cases expr with
  | text position value =>
    simp only [Expr.recode, evaluate, meaning?_recode]
    rfl
  | name position name =>
    simp only [Expr.recode, evaluate]
    rw [← give_recode, ← Store.lookup_recode]
    rfl
  | array position items =>
    simp only [Expr.recode, evaluate, Expr.recodeAll_eq_map]
    exact m.evaluateItems_recode recoding [] items
  | object position fields =>
    simp only [Expr.recode, evaluate, Field.recodeAll_eq_map]
    exact m.evaluateFields_recode recoding .empty fields
  | step position side op operand =>
    cases operand with
    | name namePosition name => exact m.stepName_recode recoding position side op name
    | _ => rfl
  | assign position target value =>
    cases target <;> rfl
  | call position callee arguments =>
    simp only [Expr.recode, evaluate, Expr.recodeAll_eq_map]
    rfl
  | function position name exported parameters body =>
    simp only [Expr.recode, evaluate, Parameter.recodeAll_eq_map]
    exact m.makeFunction_recode recoding
      { name := name, exported := exported, parameters := parameters, body := body }
  | _ => rfl

/-! ## Statements -/

/-- A rewriting that cuts nothing off goes on to the same statement. -/
theorem runBody_recode
    {recoding : Recoding}
    (keeps : recoding.cuts = false)
    (body : List Stmt) :
    (m.recode recoding).runBody (Stmt.recodeBody recoding body) =
      (m.runBody body).recode recoding := by
  cases body with
  | nil => rfl
  | cons statement rest =>
    simp only [Stmt.recodeBody, keeps, Bool.false_and, Bool.false_eq_true, if_false]
    rfl

/-- The execution of a rewritten statement begins like that of the other one. -/
theorem execute_recode
    (stmt : Stmt) :
    (m.recode recoding).execute (stmt.recode recoding) = (m.execute stmt).recode recoding := by
  cases stmt with
  | branch position test consequent alternate =>
    simp only [Stmt.recode, execute]
    rfl
  | whileLoop position test body =>
    simp only [Stmt.recode, execute]
    rfl
  | forLoop position start test update body =>
    simp only [Stmt.recode, execute]
    simp only [recode, Store.newChild_recode]
    rfl
  | debug position values =>
    simp only [Stmt.recode, execute, Expr.recodeAll_eq_map]
    exact m.evaluateShown_recode recoding [] values
  | _ => rfl

/-! ## Calls -/

/-- A function of the library does the same to values whose code is rewritten. -/
theorem act_recode
    (position : Option Position)
    (action : Action) :
    (m.recode recoding).act (position.map recoding.move) (action.recode recoding) =
      (m.act position action).recode recoding := by
  cases action with
  | make items =>
    simp only [Action.recode, act, recode, Store.newArray_recode]
    rfl
  | push ref items =>
    have pushed :
        (m.store.recode recoding).modifyArray ref (· ++ items.map (Value.recode recoding)) =
          (m.store.modifyArray ref (· ++ items)).recode recoding := by
      refine m.store.modifyArray_recode recoding (fun old => ?_) ref
      apply Array.toList_inj.1
      simp
    simp only [Action.recode, act, recode, pushed, Store.array_recode, Array.size_map]
    rfl
  | pop ref last =>
    have commutes : ∀ items : Array Value,
        (items.map (Value.recode recoding)).pop = items.pop.map (Value.recode recoding) := by
      intro items
      simp
    have popped := m.store.modifyArray_recode recoding commutes ref
    simp only [Action.recode, act, recode, popped]
    rfl
  | _ => rfl

/-- A function of the library fails for the same reason on values whose code is rewritten. -/
theorem actOrFail_recode
    (position : Option Position)
    (result : Except Fault.Cause Action) :
    (m.recode recoding).actOrFail (position.map recoding.move)
        (result.map (Action.recode recoding)) =
      (m.actOrFail position result).recode recoding := by
  cases result with
  | ok action => exact m.act_recode recoding position action
  | error cause => rfl

/-- The arguments of a call are bound alike to the parameters of a rewritten function. -/
theorem bindArguments_recode
    (store : Store)
    (scope : ScopeRef)
    (parameters : List Parameter)
    (arguments : List Value) :
    bindArguments (store.recode recoding) scope (parameters.map (Parameter.recode recoding))
        (arguments.map (Value.recode recoding)) =
      (bindArguments store scope parameters arguments).recode recoding := by
  induction parameters generalizing store arguments with
  | nil => cases arguments <;> rfl
  | cons parameter parameters ih =>
    cases arguments with
    | nil => rfl
    | cons argument arguments =>
      simp only [List.map_cons, bindArguments, Parameter.name_recode, Store.declare_recode, ih]

/-- The call of a rewritten function has a scope like that of the other one. -/
theorem activate_recode
    (function : Function)
    (captured : ScopeRef)
    (arguments : List Value) :
    (m.recode recoding).activate (function.recode recoding) captured
        (arguments.map (Value.recode recoding)) =
      (m.activate function captured arguments).recode recoding := by
  simp only [activate, recode, Store.newChild_recode, Function.recode, bindArguments_recode,
    List.length_map, Control.recode, List.map_drop, Activation.recode]

/-- The parameters of a rewritten function are bound alike. -/
theorem bindParameters_recode
    (call : Activation)
    (parameters : List Parameter) :
    (m.recode recoding).bindParameters (call.recode recoding)
        (parameters.map (Parameter.recode recoding)) =
      (m.bindParameters call parameters).recode recoding := by
  cases parameters with
  | nil => rfl
  | cons parameter parameters =>
    cases parameter with
    | required name =>
      have declared := m.store.declare_recode recoding call.scope name .undefined false
      simp only [Value.recode] at declared
      simp only [List.map_cons, Parameter.recode, bindParameters, recode, Activation.recode,
        declared, Control.recode]
    | optional name default => rfl

/-- A rewritten function is called like the other one. -/
theorem apply_recode
    (callee : Value)
    (arguments : List Value)
    (position : Option Position) :
    (m.recode recoding).apply (callee.recode recoding) (arguments.map (Value.recode recoding))
        (position.map recoding.move) =
      (m.apply callee arguments position).recode recoding := by
  cases callee with
  | function function captured => exact m.activate_recode recoding function captured arguments
  | native native =>
    simp only [Value.recode, apply]
    rw [← actOrFail_recode, ← Native.perform_recode]
    rfl
  | method receiver method =>
    simp only [Value.recode, apply]
    rw [← actOrFail_recode, ← Method.perform_recode]
    rfl
  | _ => rfl

/-! ## Frames -/

/-- A rewritten operation goes on like the other one. -/
theorem resume_recode
    (value : Value)
    (frame : Frame) :
    (m.recode recoding).resume (value.recode recoding) (frame.recode recoding) =
      (m.resume value frame).recode recoding := by
  cases frame with
  | items done rest => exact m.evaluateItems_recode recoding (value :: done) rest
  | fields done key rest =>
    simp only [Frame.recode, resume, Table.insert_map]
    exact m.evaluateFields_recode recoding (done.insert key value) rest
  | binary position op left =>
    simp only [Frame.recode, resume]
    rw [← giveOrFail_recode, ← Store.binary_recode]
    rfl
  | logical op operand =>
    have truthy :
        (m.recode recoding).store.isTruthy (value.recode recoding) = m.store.isTruthy value :=
      m.store.isTruthy_recode recoding value
    simp only [Frame.recode, resume, truthy]
    split <;> rfl
  | unary position op =>
    simp only [Frame.recode, resume]
    rw [← giveOrFail_recode, ← Store.unary_recode]
    rfl
  | assignName name =>
    simp only [Frame.recode, resume, recode, Store.assign_recode, Control.recode]
  | assignValue position subject key =>
    have same :
        (m.recode recoding).store.place (subject.recode recoding) (key.recode recoding) =
          m.store.place subject key :=
      m.store.place_recode recoding subject key
    simp only [Frame.recode, resume, same]
    cases m.store.place subject key with
    | ok place => simp only [recode, Store.put_recode, Control.recode]
    | error cause => rfl
  | declare flavour name =>
    simp only [Frame.recode, resume, recode, Store.declare_recode, Control.recode]
  | callee position arguments =>
    exact m.evaluateArguments_recode recoding position value [] arguments
  | arguments position callee done rest =>
    exact m.evaluateArguments_recode recoding position callee (value :: done) rest
  | member position key =>
    simp only [Frame.recode, resume]
    rw [← giveOrFail_recode, ← Store.member_recode]
    rfl
  | key position subject =>
    simp only [Frame.recode, resume]
    rw [← giveOrFail_recode, ← Store.member_recode]
    rfl
  | ternary consequent alternate =>
    simp only [Frame.recode, resume, recode, Store.isTruthy_recode]
    split <;> rfl
  | typeof => simp only [Frame.recode, resume, Value.typeTag_recode]; rfl
  | branch consequent alternate =>
    simp only [Frame.recode, resume, recode, Store.isTruthy_recode]
    split <;> rfl
  | whileTest test body last =>
    have truthy :
        (m.recode recoding).store.isTruthy (value.recode recoding) = m.store.isTruthy value :=
      m.store.isTruthy_recode recoding value
    simp only [Frame.recode, resume, truthy]
    split <;> rfl
  | forTest loop last =>
    have truthy :
        (m.recode recoding).store.isTruthy (value.recode recoding) = m.store.isTruthy value :=
      m.store.isTruthy_recode recoding value
    simp only [Frame.recode, resume, truthy]
    split <;> rfl
  | debug done rest =>
    have shown : (m.recode recoding).store.repr (value.recode recoding) = m.store.repr value :=
      m.store.repr_recode recoding value
    simp only [Frame.recode, resume, shown]
    exact m.evaluateShown_recode recoding _ rest
  | sequence rest => cases rest <;> rfl
  | parameter call name rest =>
    simp only [Frame.recode, resume, recode, Activation.recode, Store.declare_recode,
      Control.recode]
  | _ => rfl

theorem leave_recode
    (value : Value)
    (frame : Frame) :
    (m.recode recoding).leave (value.recode recoding) (frame.recode recoding) =
      (m.leave value frame).recode recoding := by
  cases frame <;> rfl

/-! ## Steps -/

/-- A step does not depend on recoded code, where it runs no list of statements or none is cut. -/
theorem step_recode
    (keeps : recoding.cuts = false ∨ ∀ body, m.control ≠ .run body) :
    (m.recode recoding).step = m.step.recode recoding := by
  obtain ⟨control, scope, stack, store⟩ := m
  cases control with
  | evaluate expr => exact evaluate_recode recoding _ expr
  | execute stmt => exact execute_recode recoding _ stmt
  | run body => exact runBody_recode _ (keeps.resolve_right fun other => other body rfl) body
  | give value =>
    cases stack with
    | nil => rfl
    | cons frame rest =>
      exact resume_recode recoding
        { control := .give value, scope := scope, stack := rest, store := store } value frame
  | unwind value =>
    cases stack with
    | nil => rfl
    | cons frame rest =>
      exact leave_recode recoding
        { control := .unwind value, scope := scope, stack := rest, store := store } value frame
  | apply callee arguments position => exact apply_recode recoding _ callee arguments position
  | bind call parameters => exact bindParameters_recode recoding _ call parameters
  | await request position => rfl
  | failed fault => rfl
  | exited status => rfl

/-- A rewritten run ends when the other one ends, with the rewritten value. -/
theorem outcome?_recode :
    (m.recode recoding).outcome? = m.outcome?.map (Outcome.recode recoding) := by
  obtain ⟨control, scope, stack, store⟩ := m
  cases control <;> cases stack <;> rfl

/-- A rewritten run asks the same. -/
theorem request?_recode :
    (m.recode recoding).request? = m.request?.map (Request.recode recoding) := by
  obtain ⟨control, scope, stack, store⟩ := m
  cases control <;> rfl

theorem answer_recode
    (reply : Except String Value) :
    (m.recode recoding).answer (reply.map (Value.recode recoding)) =
      (m.answer reply).recode recoding := by
  obtain ⟨control, scope, stack, store⟩ := m
  cases control <;> cases reply <;> rfl

end Machine
end TinyScript
