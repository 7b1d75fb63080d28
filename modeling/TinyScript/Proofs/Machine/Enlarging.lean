import TinyScript.Proofs.Machine.Scopes
import TinyScript.Proofs.Machine.Writes
import TinyScript.Proofs.Store.Enlarging

/-!
# Runs in enlarged stores

Scopes, arrays and objects that nothing refers to have no influence on a run, and are not changed
by it: a machine takes the same steps in the enlarged store (`Machine.step_enlarge`), and a run is
the same for as many steps as it takes (`Machine.Installed.run_enlarge`).
-/

namespace TinyScript

/-! ## Machines -/

section Relocation

variable (relocation : Relocation)

/-- A call whose references are to the other places. -/
def Activation.relocate (call : Activation) : Activation :=
  { call with
    scope := relocation.scope call.scope
    captured := relocation.scope call.captured
    caller := relocation.scope call.caller }

/-- A loop whose references are to the other places. -/
def Loop.relocate (loop : Loop) : Loop :=
  { loop with outer := relocation.scope loop.outer }

/-- A frame whose references are to the other places. -/
def Frame.relocate : Frame → Frame
  | .items done rest => .items (done.map (Value.relocate relocation)) rest
  | .fields done name rest => .fields (done.map (Value.relocate relocation)) name rest
  | .binary position op left => .binary position op (left.relocate relocation)
  | .assignKey position subject value => .assignKey position (subject.relocate relocation) value
  | .assignValue position subject subscript =>
    .assignValue position (subject.relocate relocation) (subscript.relocate relocation)
  | .arguments position value done rest =>
    .arguments position (value.relocate relocation) (done.map (Value.relocate relocation)) rest
  | .key position subject => .key position (subject.relocate relocation)
  | .whileTest test body last => .whileTest test body (last.relocate relocation)
  | .forStart loop => .forStart (loop.relocate relocation)
  | .forTest loop last => .forTest (loop.relocate relocation) (last.relocate relocation)
  | .forBody loop => .forBody (loop.relocate relocation)
  | .forUpdate loop last => .forUpdate (loop.relocate relocation) (last.relocate relocation)
  | .parameter begun name rest => .parameter (begun.relocate relocation) name rest
  | .call caller => .call (relocation.scope caller)
  | frame => frame

/-- Work whose references are to the other places. -/
def Control.relocate : Control → Control
  | .give value => .give (value.relocate relocation)
  | .unwind value => .unwind (value.relocate relocation)
  | .apply callee arguments position =>
    .apply (callee.relocate relocation) (arguments.map (Value.relocate relocation)) position
  | .bind call parameters => .bind (call.relocate relocation) parameters
  | .await request position => .await (request.disguise relocation.disguise) position
  | control => control

/-- An outcome whose references are to the other places. -/
def Outcome.relocate : Outcome → Outcome
  | .completed value => .completed (value.relocate relocation)
  | outcome => outcome

end Relocation

namespace Machine

variable (larger : Enlargement)

/-- A machine in an enlarged store. -/
def enlarge (m : Machine) : Machine :=
  { control := m.control.relocate larger.toRelocation
    scope := larger.scope m.scope
    stack := m.stack.map (Frame.relocate larger.toRelocation)
    store := larger.enlarge m.store }

variable {larger} (m : Machine)

/-! ## Steps without the store -/

/-- A value is handed to the same frame in a larger store. -/
theorem give_enlarge
    (value : Value) :
    (m.enlarge larger).give (value.relocate larger.toRelocation) = (m.give value).enlarge larger :=
  rfl

/-- A computation that fails without a larger store fails with it, and for the same reason. -/
theorem giveOrFail_enlarge
    (position : Position)
    (result : Except Fault.Cause Value) :
    (m.enlarge larger).giveOrFail position (result.map (Value.relocate larger.toRelocation)) =
      (m.giveOrFail position result).enlarge larger := by
  cases result <;> rfl

/-- The arguments of a call are evaluated in the same order beside more scopes, arrays and
objects. -/
theorem evaluateArguments_enlarge
    (position : Position)
    (callee : Value)
    (done : List Value)
    (arguments : List Expr) :
    (m.enlarge larger).evaluateArguments position (callee.relocate larger.toRelocation)
        (done.map (Value.relocate larger.toRelocation)) arguments =
      (m.evaluateArguments position callee done arguments).enlarge larger := by
  cases arguments with
  | nil => simp [evaluateArguments, enlarge, Control.relocate]
  | cons argument arguments => rfl

/-- The same statement of a body comes next. -/
theorem runBody_enlarge
    (body : List Stmt) :
    (m.enlarge larger).runBody body = (m.runBody body).enlarge larger := by
  cases body <;> rfl

/-- The same frames are left by a return. -/
theorem leave_enlarge
    (value : Value)
    (frame : Frame) :
    (m.enlarge larger).leave (value.relocate larger.toRelocation)
        (frame.relocate larger.toRelocation) =
      (m.leave value frame).enlarge larger := by
  cases frame <;> rfl

/-- The same texts are shown, since no text of a value tells where the value is kept. -/
theorem evaluateShown_enlarge
    (done : List String)
    (values : List Expr) :
    (m.enlarge larger).evaluateShown done values =
      (m.evaluateShown done values).enlarge larger := by
  cases values with
  | nil =>
    simp only [evaluateShown, enlarge, larger.writeLine_enlarge]
    rfl
  | cons value values => rfl

/-! ## Steps in the store -/

section Steps

variable {m} (fits : larger.Fits m.store)

include fits

/-- An array that is complete is put at the place that corresponds to its own. -/
theorem evaluateItems_enlarge
    (done : List Value)
    (items : List Expr) :
    (m.enlarge larger).evaluateItems (done.map (Value.relocate larger.toRelocation)) items =
      (m.evaluateItems done items).enlarge larger := by
  cases items with
  | nil =>
    simp only [evaluateItems, ← List.map_reverse, ← List.map_toArray, enlarge,
      larger.newArray_enlarge fits]
    rfl
  | cons item items => rfl

/-- An object that is complete is put at the place that corresponds to its own. -/
theorem evaluateFields_enlarge
    (done : Table Value)
    (fields : List Field) :
    (m.enlarge larger).evaluateFields (done.map (Value.relocate larger.toRelocation)) fields =
      (m.evaluateFields done fields).enlarge larger := by
  match fields with
  | [] =>
    simp only [evaluateFields, enlarge, larger.newObject_enlarge fits]
    rfl
  | .mk key value :: rest => rfl

/-- What a function of the library does to a store, it does at the corresponding places of a larger
one. -/
theorem act_enlarge
    (position : Option Position)
    (action : Action) :
    (m.enlarge larger).act position (action.disguise larger.toRelocation.disguise) =
      (m.act position action).enlarge larger := by
  cases action with
  | make items =>
    simp only [Action.disguise, act, enlarge, ← List.map_toArray, larger.newArray_enlarge fits]
    rfl
  | push ref items =>
    have pushed :
        (larger.enlarge m.store).modifyArray (larger.toRelocation.disguise.array ref)
            (· ++ items.map (Value.relocate larger.toRelocation)) =
          larger.enlarge (m.store.modifyArray ref (· ++ items)) := by
      refine larger.modifyArray_enlarge fits (fun old => ?_) ref
      apply Array.toList_inj.1
      simp
    have items := (larger.disguised (larger.fits_modifyArray fits ref (· ++ items))).array ref
    simp only [Action.disguise, act, enlarge, pushed, items, Array.size_map]
    rfl
  | pop ref last =>
    have commutes : ∀ items : Array Value,
        (items.map (Value.relocate larger.toRelocation)).pop =
          items.pop.map (Value.relocate larger.toRelocation) := by
      intro items
      simp
    have popped := larger.modifyArray_enlarge fits commutes ref
    simp only [Action.disguise, act, enlarge, Relocation.disguise, popped]
    rfl
  | print line =>
    simp only [Action.disguise, act, enlarge, larger.writeLine_enlarge]
    rfl
  | ask prompt request =>
    simp only [Action.disguise, act, enlarge, larger.write_enlarge]
    rfl
  | _ => rfl

/-- A function of the library fails in a larger store just when it fails in the smaller one. -/
theorem actOrFail_enlarge
    (position : Option Position)
    (result : Except Fault.Cause Action) :
    (m.enlarge larger).actOrFail position
        (result.map (Action.disguise larger.toRelocation.disguise)) =
      (m.actOrFail position result).enlarge larger := by
  cases result with
  | ok action => exact act_enlarge fits position action
  | error cause => rfl

/-- The placeholders of a text mean the same. -/
theorem meaning?_enlarge :
    (m.enlarge larger).meaning? = m.meaning? := by
  funext name
  simp only [meaning?, enlarge, larger.lookup?_enlarge fits, Option.map_map]
  congr 1
  funext value
  exact (larger.disguised fits).display value

/-- A variable is counted up or down in the scope that corresponds to its own. -/
theorem stepName_enlarge
    (position : Position)
    (side : StepSide)
    (op : StepOp)
    (name : String) :
    (m.enlarge larger).stepName position side op name =
      (m.stepName position side op name).enlarge larger := by
  have found :
      (m.enlarge larger).store.lookup (m.enlarge larger).scope name =
        (m.store.lookup m.scope name).relocate larger.toRelocation :=
    larger.lookup_enlarge fits m.scope name
  unfold stepName
  rw [found]
  cases m.store.lookup m.scope name with
  | number old =>
    have assigned := fun new : Float => larger.assign_enlarge fits m.scope name (.number new)
    simp only [Value.disguise] at assigned ⊢
    simp only [enlarge, assigned, Control.relocate, Value.disguise]
  | _ => rfl

/-- A named function is bound in the scope that corresponds to its own. -/
theorem makeFunction_enlarge
    (function : Function) :
    (m.enlarge larger).makeFunction function = (m.makeFunction function).enlarge larger := by
  unfold makeFunction
  cases function.name with
  | none => rfl
  | some name =>
    have declared :
        (larger.enlarge m.store).declare (larger.scope m.scope) name
            (.function function (larger.scope m.scope)) true =
          larger.enlarge (m.store.declare m.scope name (.function function m.scope) true) :=
      larger.declare_enlarge fits m.scope name (.function function m.scope) true
    simp only [enlarge, declared]
    rfl

/-- The evaluation of an expression begins in the same way in a larger store. -/
theorem evaluate_enlarge
    (expr : Expr) :
    (m.enlarge larger).evaluate expr = (m.evaluate expr).enlarge larger := by
  cases expr with
  | text position value =>
    simp only [evaluate, meaning?_enlarge fits]
    rfl
  | name position name =>
    simp only [evaluate]
    rw [← give_enlarge, ← larger.lookup_enlarge fits]
    rfl
  | array position items => exact evaluateItems_enlarge fits [] items
  | object position fields => exact evaluateFields_enlarge fits .empty fields
  | step position side op operand =>
    cases operand with
    | name namePosition name => exact stepName_enlarge fits position side op name
    | _ => rfl
  | assign position target value => cases target <;> rfl
  | function position name exported parameters body => exact makeFunction_enlarge fits _
  | _ => rfl

/-- The execution of a statement begins in the same way in a larger store. -/
theorem execute_enlarge
    (stmt : Stmt) :
    (m.enlarge larger).execute stmt = (m.execute stmt).enlarge larger := by
  cases stmt with
  | forLoop position start test update body =>
    simp only [execute, enlarge, larger.newChild_enlarge fits]
    rfl
  | debug position values => exact m.evaluateShown_enlarge [] values
  | _ => rfl

/-- The scope of a call is made inside the one that corresponds to the scope of the function. -/
theorem activate_enlarge
    (function : Function)
    (captured : ScopeRef)
    (arguments : List Value) :
    (m.enlarge larger).activate function (larger.scope captured)
        (arguments.map (Value.relocate larger.toRelocation)) =
      (m.activate function captured arguments).enlarge larger := by
  simp only [activate, enlarge, larger.newChild_enlarge fits,
    larger.bindArguments_enlarge (larger.fits_newChild fits captured), List.length_map]
  rfl

/-- The same parameter is bound next, or the same default is to be evaluated. -/
theorem bindParameters_enlarge
    (call : Activation)
    (parameters : List Parameter) :
    (m.enlarge larger).bindParameters (call.relocate larger.toRelocation) parameters =
      (m.bindParameters call parameters).enlarge larger := by
  match parameters with
  | [] => rfl
  | .required name :: rest =>
    have declared :
        (larger.enlarge m.store).declare (larger.scope call.scope) name .undefined false =
          larger.enlarge (m.store.declare call.scope name .undefined false) :=
      larger.declare_enlarge fits call.scope name .undefined false
    simp only [bindParameters, enlarge, Activation.relocate, declared]
    rfl
  | .optional name default :: rest => rfl

/-- A call is begun in the same way in a larger store. -/
theorem apply_enlarge
    (callee : Value)
    (arguments : List Value)
    (position : Option Position) :
    (m.enlarge larger).apply (callee.relocate larger.toRelocation)
        (arguments.map (Value.relocate larger.toRelocation)) position =
      (m.apply callee arguments position).enlarge larger := by
  have disguised := larger.disguised fits
  cases callee with
  | function function captured => exact activate_enlarge fits function captured arguments
  | native native =>
    have performs := disguised.perform native arguments m.scope
    simp only [Value.disguise, apply]
    rw [← actOrFail_enlarge fits, ← performs]
    rfl
  | method receiver method =>
    have performs := disguised.performMethod method receiver arguments
    simp only [Value.disguise, apply]
    rw [← actOrFail_enlarge fits, ← performs]
    rfl
  | _ => rfl

/-- Whatever was waiting for a value goes on in the same way with the value that corresponds to
it. -/
theorem resume_enlarge
    (value : Value)
    (frame : Frame) :
    (m.enlarge larger).resume (value.relocate larger.toRelocation)
        (frame.relocate larger.toRelocation) =
      (m.resume value frame).enlarge larger := by
  have disguised := larger.disguised fits
  have truthy : (m.enlarge larger).store.isTruthy (value.relocate larger.toRelocation) =
      m.store.isTruthy value :=
    disguised.isTruthy value
  cases frame with
  | items done rest => exact evaluateItems_enlarge fits (value :: done) rest
  | fields done key rest =>
    simp only [Frame.relocate, resume, Table.insert_map]
    exact evaluateFields_enlarge fits (done.insert key value) rest
  | binary position op left =>
    have same := disguised.binary op left value
    simp only [Frame.relocate, resume]
    rw [← giveOrFail_enlarge, ← same]
    rfl
  | logical op operand =>
    simp only [Frame.relocate, resume, truthy]
    split <;> rfl
  | unary position op =>
    have same := disguised.unary op value
    simp only [Frame.relocate, resume]
    rw [← giveOrFail_enlarge, ← same]
    rfl
  | assignName name =>
    simp only [Frame.relocate, resume, enlarge, larger.assign_enlarge fits]
    rfl
  | assignValue position subject key =>
    have same :
        (m.enlarge larger).store.place (subject.relocate larger.toRelocation)
            (key.relocate larger.toRelocation) =
          (m.store.place subject key).map (Place.disguise larger.toRelocation.disguise) :=
      disguised.place subject key
    simp only [Frame.relocate, resume, same]
    cases m.store.place subject key with
    | ok place =>
      simp only [Except.map, enlarge, larger.put_enlarge fits]
      rfl
    | error cause => rfl
  | declare flavour name =>
    simp only [Frame.relocate, resume, enlarge, larger.declare_enlarge fits]
    rfl
  | callee position arguments => exact m.evaluateArguments_enlarge position value [] arguments
  | arguments position callee done rest =>
    exact m.evaluateArguments_enlarge position callee (value :: done) rest
  | member position key =>
    have same := disguised.member value (.string key)
    simp only [Frame.relocate, resume]
    rw [← giveOrFail_enlarge, ← same]
    rfl
  | key position subject =>
    have same := disguised.member subject value
    simp only [Frame.relocate, resume]
    rw [← giveOrFail_enlarge, ← same]
    rfl
  | ternary consequent alternate =>
    simp only [Frame.relocate, resume, truthy]
    rfl
  | typeof =>
    simp only [Frame.relocate, resume, Value.typeTag_disguise]
    rfl
  | branch consequent alternate =>
    simp only [Frame.relocate, resume, truthy]
    rfl
  | whileTest test body last =>
    simp only [Frame.relocate, resume, truthy]
    split <;> rfl
  | forTest loop last =>
    simp only [Frame.relocate, resume, truthy]
    split <;> rfl
  | debug done rest =>
    have shown : (m.enlarge larger).store.repr (value.relocate larger.toRelocation) =
        m.store.repr value :=
      disguised.repr value
    simp only [Frame.relocate, resume, shown]
    exact m.evaluateShown_enlarge _ rest
  | sequence rest => cases rest <;> rfl
  | parameter call name rest =>
    simp only [Frame.relocate, resume, enlarge, Activation.relocate, larger.declare_enlarge fits]
    rfl
  | _ => rfl

/-- A step is the same in an enlarged store. -/
theorem step_enlarge :
    (m.enlarge larger).step = m.step.enlarge larger := by
  obtain ⟨control, scope, stack, store⟩ := m
  cases control with
  | evaluate expr => exact evaluate_enlarge fits expr
  | execute stmt => exact execute_enlarge fits stmt
  | run body => exact runBody_enlarge _ body
  | give value =>
    cases stack with
    | nil => rfl
    | cons frame rest =>
      exact resume_enlarge
        (m := { control := .give value, scope := scope, stack := rest, store := store })
        fits value frame
  | unwind value =>
    cases stack with
    | nil => rfl
    | cons frame rest =>
      exact leave_enlarge
        { control := .unwind value, scope := scope, stack := rest, store := store } value frame
  | apply callee arguments position => exact apply_enlarge fits callee arguments position
  | bind call parameters => exact bindParameters_enlarge fits call parameters
  | await request position => rfl
  | failed fault => rfl
  | exited status => rfl

end Steps

/-! ## Runs -/

/-- A run in a larger store ends when the other one ends, with the corresponding value. -/
theorem outcome?_enlarge :
    (m.enlarge larger).outcome? = m.outcome?.map (Outcome.relocate larger.toRelocation) := by
  obtain ⟨control, scope, stack, store⟩ := m
  cases control <;> cases stack <;> rfl

/-- The same question is asked in a larger store, about corresponding values. -/
theorem request?_enlarge :
    (m.enlarge larger).request? =
      m.request?.map (Request.disguise larger.toRelocation.disguise) := by
  obtain ⟨control, scope, stack, store⟩ := m
  cases control <;> rfl

/-- The same answer leads on in the same way. -/
theorem answer_enlarge
    (reply : Except String Value) :
    (m.enlarge larger).answer (reply.map (Value.relocate larger.toRelocation)) =
      (m.answer reply).enlarge larger := by
  obtain ⟨control, scope, stack, store⟩ := m
  cases control <;> cases reply <;> rfl

variable {State : Type} {m} (installed : m.Installed)

include installed

/-- Nothing is ever taken out of a store. -/
theorem Installed.noSmaller_advance
    (host : Host State)
    (state : State) :
    (m.advance host state).1.store.NoSmaller m.store where
  scopes := (advance_extends installed host state).size
  arrays := (installed.writes_advance host state).size_le.1
  objects := (installed.writes_advance host state).size_le.2

/-- One advance in a larger store is the corresponding one, and asks the same of the host. -/
theorem Installed.advance_enlarge
    (fits : larger.Fits m.store)
    (host : Host State)
    (state : State) :
    (m.enlarge larger).advance host state =
      ((m.advance host state).1.enlarge larger, (m.advance host state).2) := by
  unfold Machine.advance
  rw [request?_enlarge]
  cases asks : m.request? with
  | none => exact Prod.ext (step_enlarge fits) rfl
  | some request =>
    obtain ⟨sameRequest, answer, next, _, sameAnswer, reply⟩ :=
      installed.exists_reply asks host state
    simp only [Option.map_some, sameRequest, reply]
    refine Prod.ext ?_ rfl
    have answered :
        (m.enlarge larger).answer (.ok (answer.relocate larger.toRelocation)) =
          (m.answer (.ok answer)).enlarge larger :=
      m.answer_enlarge (.ok answer)
    simp only [Value.relocate, sameAnswer] at answered
    exact answered

/-- A run is the same in an enlarged store. -/
theorem Installed.run_enlarge
    (fits : larger.Fits m.store)
    (host : Host State)
    (limit : Nat)
    (state : State) :
    (m.enlarge larger).run host limit state =
      ((m.run host limit state).1.enlarge larger, (m.run host limit state).2) := by
  induction limit generalizing m state with
  | zero => rfl
  | succ limit ih =>
    simp only [Machine.run, outcome?_enlarge, Option.isSome_map,
      installed.advance_enlarge fits host state]
    split
    · rfl
    · have grown := installed.noSmaller_advance host state
      exact ih (installed.advance host state) (larger.fits_of_noSmaller fits grown) _

end Machine
end TinyScript
