import TinyScript.Session

/-!
# What lies deeper on the stack

A machine goes on above other frames as it does without them, until it would have
ended.
-/

namespace TinyScript
namespace Machine

/-- The machine above other frames. -/
def under (m : Machine) (base : List Frame) : Machine :=
  { m with stack := m.stack ++ base }

variable (m : Machine) (base : List Frame)

@[simp] theorem under_nil :
    m.under [] = m := by
  simp [under]

/-! ## Steps -/

theorem giveOrFail_under
    (position : Position)
    (result : Except Fault.Cause Value) :
    (m.under base).giveOrFail position result = (m.giveOrFail position result).under base := by
  cases result <;> rfl

theorem evaluateItems_under
    (done : List Value)
    (items : List Expr) :
    (m.under base).evaluateItems done items = (m.evaluateItems done items).under base := by
  cases items <;> rfl

theorem evaluateFields_under
    (done : Table Value)
    (fields : List Field) :
    (m.under base).evaluateFields done fields = (m.evaluateFields done fields).under base := by
  match fields with
  | [] => rfl
  | .mk key value :: rest => rfl

theorem evaluateArguments_under
    (position : Position)
    (callee : Value)
    (done : List Value)
    (arguments : List Expr) :
    (m.under base).evaluateArguments position callee done arguments =
      (m.evaluateArguments position callee done arguments).under base := by
  cases arguments <;> rfl

theorem evaluateShown_under
    (done : List String)
    (values : List Expr) :
    (m.under base).evaluateShown done values = (m.evaluateShown done values).under base := by
  cases values <;> rfl

theorem stepName_under
    (position : Position)
    (side : StepSide)
    (op : StepOp)
    (name : String) :
    (m.under base).stepName position side op name =
      (m.stepName position side op name).under base := by
  simp only [stepName, under]
  split <;> rfl

theorem makeFunction_under
    (function : Function) :
    (m.under base).makeFunction function = (m.makeFunction function).under base := by
  simp only [makeFunction, under]
  split <;> rfl

/-- To begin with an expression does not depend on the frames below. -/
theorem evaluate_under
    (expr : Expr) :
    (m.under base).evaluate expr = (m.evaluate expr).under base := by
  cases expr with
  | array position items => exact m.evaluateItems_under base [] items
  | object position fields => exact m.evaluateFields_under base .empty fields
  | step position side op operand =>
    cases operand with
    | name namePosition name => exact m.stepName_under base position side op name
    | _ => rfl
  | assign position target value => cases target <;> rfl
  | function position name exported parameters body => exact m.makeFunction_under base _
  | _ => rfl

theorem runBody_under
    (body : List Stmt) :
    (m.under base).runBody body = (m.runBody body).under base := by
  cases body <;> rfl

/-- To begin with a statement does not depend on the frames below. -/
theorem execute_under
    (stmt : Stmt) :
    (m.under base).execute stmt = (m.execute stmt).under base := by
  cases stmt with
  | debug position values => exact m.evaluateShown_under base [] values
  | _ => rfl

theorem actOrFail_under
    (position : Option Position)
    (result : Except Fault.Cause Action) :
    (m.under base).actOrFail position result = (m.actOrFail position result).under base := by
  cases result with
  | ok action => cases action <;> rfl
  | error cause => rfl

theorem bindParameters_under
    (call : Activation)
    (parameters : List Parameter) :
    (m.under base).bindParameters call parameters =
      (m.bindParameters call parameters).under base := by
  match parameters with
  | [] => rfl
  | .required name :: rest => rfl
  | .optional name default :: rest => rfl

/-- A call does not depend on the frames below. -/
theorem apply_under
    (callee : Value)
    (arguments : List Value)
    (position : Option Position) :
    (m.under base).apply callee arguments position =
      (m.apply callee arguments position).under base := by
  cases callee with
  | native native => exact m.actOrFail_under base position _
  | method receiver method => exact m.actOrFail_under base position _
  | _ => rfl

/-- What the frame on top does with a value does not depend on the frames below. -/
theorem resume_under
    (value : Value)
    (frame : Frame) :
    (m.under base).resume value frame = (m.resume value frame).under base := by
  cases frame with
  | items done rest => exact m.evaluateItems_under base (value :: done) rest
  | fields done key rest => exact m.evaluateFields_under base (done.insert key value) rest
  | binary position op left => exact m.giveOrFail_under base position _
  | logical op operand =>
    simp only [resume]
    rw [apply_ite fun next : Machine => next.under base]
    rfl
  | unary position op => exact m.giveOrFail_under base position _
  | assignValue position subject key =>
    simp only [resume, under]
    split <;> rfl
  | callee position arguments => exact m.evaluateArguments_under base position value [] arguments
  | arguments position callee done rest =>
    exact m.evaluateArguments_under base position callee (value :: done) rest
  | member position key => exact m.giveOrFail_under base position _
  | key position subject => exact m.giveOrFail_under base position _
  | whileTest test body last =>
    simp only [resume]
    rw [apply_ite fun next : Machine => next.under base]
    rfl
  | forTest loop last =>
    simp only [resume]
    rw [apply_ite fun next : Machine => next.under base]
    rfl
  | debug done rest => exact m.evaluateShown_under base _ rest
  | sequence rest => cases rest <;> rfl
  | _ => rfl

theorem leave_under
    (value : Value)
    (frame : Frame) :
    (m.under base).leave value frame = (m.leave value frame).under base := by
  cases frame <;> rfl

variable {m}

/-- A machine that goes on without other frames below its own goes on above them. -/
theorem outcome?_under
    (going : m.outcome? = none) :
    (m.under base).outcome? = none := by
  obtain ⟨control, scope, stack, store⟩ := m
  cases control <;> cases stack <;> first | rfl | cases going

/-- Until it ends, a machine takes the same steps on top of further frames. -/
theorem step_under
    (going : m.outcome? = none) :
    (m.under base).step = m.step.under base := by
  obtain ⟨control, scope, stack, store⟩ := m
  cases control with
  | evaluate expr => exact evaluate_under _ base expr
  | execute stmt => exact execute_under _ base stmt
  | run body => exact runBody_under _ base body
  | give value =>
    cases stack with
    | nil => cases going
    | cons frame rest =>
      exact resume_under { control := .give value, scope := scope, stack := rest, store := store }
        base value frame
  | unwind value =>
    cases stack with
    | nil => cases going
    | cons frame rest =>
      exact leave_under { control := .unwind value, scope := scope, stack := rest, store := store }
        base value frame
  | apply callee arguments position => exact apply_under _ base callee arguments position
  | bind call parameters => exact bindParameters_under _ base call parameters
  | await request position => rfl
  | failed fault => rfl
  | exited status => rfl

/-- An answer leads on alike on top of further frames. -/
theorem answer_under
    (reply : Except String Value) :
    (m.under base).answer reply = (m.answer reply).under base := by
  obtain ⟨control, scope, stack, store⟩ := m
  cases control <;> cases reply <;> rfl

/-! ## Runs -/

variable {State : Type} (host : Host State)

/-- Until it ends, a machine advances alike on top of further frames. -/
theorem advance_under
    (going : m.outcome? = none)
    (state : State) :
    (m.under base).advance host state =
      ((m.advance host state).1.under base, (m.advance host state).2) := by
  have same : (m.under base).request? = m.request? := rfl
  unfold advance
  rw [same]
  cases m.request? with
  | none => exact Prod.ext (step_under base going) rfl
  | some request =>
    let told : Machine := { m with store := (host.reply request m.store state).2.1 }
    exact Prod.ext (answer_under (m := told) base (host.reply request m.store state).1) rfl

/-- A run above other frames is the same as without them, up to where it ends without them. -/
theorem exists_run_under
    (limit : Nat)
    (state : State) :
    ∃ count ≤ limit,
      (count = limit ∨ (m.run host count state).1.outcome?.isSome) ∧
        ∀ base, (m.under base).run host count state =
          ((m.run host count state).1.under base, (m.run host count state).2) := by
  induction limit generalizing m state with
  | zero => exact ⟨0, Nat.le_refl 0, .inl rfl, fun _ => rfl⟩
  | succ limit ih =>
    cases going : m.outcome? with
    | some outcome => exact ⟨0, Nat.zero_le _, .inr (by simp [going]), fun _ => rfl⟩
    | none =>
      obtain ⟨count, bound, stops, same⟩ := @ih (m.advance host state).1 (m.advance host state).2
      have unfolded :
          m.run host (count + 1) state =
            (m.advance host state).1.run host count (m.advance host state).2 := by
        simp [run, going]
      refine ⟨count + 1, Nat.succ_le_succ bound, ?_, fun base => ?_⟩
      · rw [unfolded]
        exact stops.imp (congrArg Nat.succ) id
      · rw [unfolded, ← same base]
        simp [run, outcome?_under base going, advance_under base host going]

end Machine
end TinyScript
