import Mathlib.Data.List.Infix
import TinyScript.Proofs.Machine.Layout
import TinyScript.Proofs.Store.Preface
import TinyScript.Proofs.Text.Filling

/-!
# Runs that avoid names

Code in which some names do not stand runs alike whether a scope has these names in front of
its own or not.
-/

namespace TinyScript

/-- None of some names is used, declared, given to a function or its parameters, or shown by a text
in an expression, its parts apart. -/
def Expr.avoids (names : List String) : Expr → Bool
  | .name _ used => used ∉ names
  | .text _ value => ∀ name ∈ names, ¬ Text.braced name <:+: value.toList
  | .declare _ _ declared _ => declared ∉ names
  | .function _ label _ parameters _ =>
    label.all (· ∉ names) && parameters.all (·.name ∉ names)
  | _ => true

namespace Machine

/-- A machine whose store has further names in front of those of a scope. -/
def preface (home : ScopeRef) (front : List (String × Binding)) (m : Machine) : Machine :=
  { m with store := m.store.preface home front }

variable (home : ScopeRef) (front : List (String × Binding)) (m : Machine)

/-- Further names of a scope change no array and no object. -/
theorem sameHeap_preface :
    (m.preface home front).store.SameHeap m.store :=
  m.store.sameHeap_preface

/-! ## Steps without names -/

theorem giveOrFail_preface
    (position : Position)
    (result : Except Fault.Cause Value) :
    (m.preface home front).giveOrFail position result =
      (m.giveOrFail position result).preface home front := by
  cases result <;> rfl

theorem evaluateItems_preface
    (done : List Value)
    (items : List Expr) :
    (m.preface home front).evaluateItems done items =
      (m.evaluateItems done items).preface home front := by
  cases items <;> rfl

theorem evaluateFields_preface
    (done : Table Value)
    (fields : List Field) :
    (m.preface home front).evaluateFields done fields =
      (m.evaluateFields done fields).preface home front := by
  match fields with
  | [] => rfl
  | .mk key value :: rest => rfl

theorem evaluateArguments_preface
    (position : Position)
    (callee : Value)
    (done : List Value)
    (arguments : List Expr) :
    (m.preface home front).evaluateArguments position callee done arguments =
      (m.evaluateArguments position callee done arguments).preface home front := by
  cases arguments <;> rfl

/-- What a `debug` statement shows does not depend on the names of the global scope. -/
theorem evaluateShown_preface
    (done : List String)
    (values : List Expr) :
    (m.preface home front).evaluateShown done values =
      (m.evaluateShown done values).preface home front := by
  cases values <;> rfl

theorem runBody_preface
    (body : List Stmt) :
    (m.preface home front).runBody body = (m.runBody body).preface home front := by
  cases body <;> rfl

/-- No function of the library reads the names of a scope. -/
theorem actOrFail_preface
    (position : Option Position)
    (result : Except Fault.Cause Action) :
    (m.preface home front).actOrFail position result =
      (m.actOrFail position result).preface home front := by
  cases result with
  | ok action => cases action <;> rfl
  | error cause => rfl

/-- A return leaves the same frames. -/
theorem leave_preface
    (value : Value)
    (frame : Frame) :
    (m.preface home front).leave value frame = (m.leave value frame).preface home front := by
  cases frame <;> rfl

/-! ## Steps with names -/

section Names

variable {region : Region} {home : ScopeRef} {front : List (String × Binding)} {m : Machine}

/-- Counting a variable up or down is the same beside names that are not its own. -/
theorem stepName_preface
    {name : String}
    (absent : name ∉ front.map (·.1))
    (position : Position)
    (side : StepSide)
    (op : StepOp) :
    (m.preface home front).stepName position side op name =
      (m.stepName position side op name).preface home front := by
  simp only [stepName, preface, m.store.lookup_preface absent]
  cases m.store.lookup m.scope name with
  | number old => simp only [m.store.assign_preface absent]
  | _ => rfl

/-- A named function is bound alike beside names that are not its own. -/
theorem makeFunction_preface
    {function : Function}
    (absent : ∀ name, function.name = some name → name ∉ front.map (·.1)) :
    (m.preface home front).makeFunction function =
      (m.makeFunction function).preface home front := by
  cases named : function.name with
  | none => simp only [makeFunction, named]; rfl
  | some name =>
    simp only [makeFunction, preface, named, m.store.declare_preface fun _ => absent name named]

/-- A text is filled alike beside names that none of its placeholders mention. -/
theorem fill_meaning?_preface
    {text : String}
    (absent : ∀ name ∈ front.map (·.1), ¬ Text.braced name <:+: text.toList) :
    Text.fill (m.preface home front).meaning? text = Text.fill m.meaning? text := by
  refine Text.fill_congr fun name _ stands => ?_
  have avoided : name ∉ front.map (·.1) := fun mem => absent name mem stands
  have shown := (m.sameHeap_preface home front).display
  simp only [preface] at shown
  simp only [meaning?, preface, m.store.lookup?_preface avoided, shown]

/-- An expression that avoids the names in front is evaluated alike without them. -/
theorem evaluate_preface
    {expr : Expr}
    (avoids : (Node.expr expr).everywhere (Expr.avoids (front.map (·.1))) = true) :
    (m.preface home front).evaluate expr = (m.evaluate expr).preface home front := by
  have here := Node.passes_of_everywhere avoids
  cases expr with
  | text position value =>
    simp only [Expr.avoids, decide_eq_true_eq] at here
    simp only [evaluate, fill_meaning?_preface here]
    rfl
  | name position name =>
    simp only [Expr.avoids, decide_eq_true_eq] at here
    simp only [evaluate, preface, m.store.lookup_preface here]
    rfl
  | array position items => exact m.evaluateItems_preface home front [] items
  | object position fields => exact m.evaluateFields_preface home front .empty fields
  | step position side op operand =>
    have ofOperand := Node.passes_of_everywhere (Node.everywhere_part avoids .step)
    cases operand with
    | name namePosition name =>
      simp only [Expr.avoids, decide_eq_true_eq] at ofOperand
      exact stepName_preface ofOperand position side op
    | _ => rfl
  | assign position target value => cases target <;> rfl
  | function position name exported parameters body =>
    refine makeFunction_preface fun label same => ?_
    simp only at same
    subst same
    simp only [Expr.avoids, Option.all_some, Bool.and_eq_true, decide_eq_true_eq] at here
    exact here.1
  | _ => rfl

/-- A statement is begun alike beside further names of the global scope. -/
theorem execute_preface
    (known : home.index < m.store.scopes.size)
    (statement : Stmt) :
    (m.preface home front).execute statement = (m.execute statement).preface home front := by
  cases statement with
  | forLoop position start test update body =>
    simp only [execute, preface, m.store.newChild_preface known]
  | debug position values => exact m.evaluateShown_preface home front [] values
  | _ => rfl

/-- A call is begun alike beside further names of the global scope. -/
theorem apply_preface
    (known : home.index < m.store.scopes.size)
    (callee : Value)
    (arguments : List Value)
    (position : Option Position) :
    (m.preface home front).apply callee arguments position =
      (m.apply callee arguments position).preface home front := by
  cases callee with
  | function function captured =>
    have apart : (m.store.newChild captured).1 ≠ home := by
      rintro rfl
      exact Nat.lt_irrefl _ known
    simp only [apply, activate, preface, m.store.newChild_preface known,
      Store.bindArguments_preface _ apart]
  | native native =>
    simp only [apply, (m.sameHeap_preface home front).perform]
    exact m.actOrFail_preface home front position _
  | method receiver method =>
    simp only [apply, (m.sameHeap_preface home front).performMethod]
    exact m.actOrFail_preface home front position _
  | _ => rfl

/-- The parameters of a call are bound in a scope of its own, which has no further names. -/
theorem bindParameters_preface
    {call : Activation}
    (apart : call.scope ≠ home)
    (parameters : List Parameter) :
    (m.preface home front).bindParameters call parameters =
      (m.bindParameters call parameters).preface home front := by
  match parameters with
  | [] => rfl
  | .required name :: rest =>
    simp only [bindParameters, preface,
      m.store.declare_preface fun same => absurd same apart]
  | .optional name default :: rest => rfl

/-- Code that avoids the names in front goes on alike without them. -/
theorem resume_preface
    (value : Value)
    {frame : Frame}
    {store : Store}
    {scope : ScopeRef}
    (ofFrame :
      (Layout.passing region (Expr.avoids (front.map (·.1))) home).OfFrame store scope frame) :
    (m.preface home front).resume value frame = (m.resume value frame).preface home front := by
  have same := m.sameHeap_preface home front
  cases frame with
  | items done rest => exact m.evaluateItems_preface home front _ rest
  | fields done key rest => exact m.evaluateFields_preface home front _ rest
  | binary position op left =>
    simp only [resume, same.binary]
    exact m.giveOrFail_preface home front position _
  | logical op operand =>
    simp only [resume, same.isTruthy]
    split <;> rfl
  | unary position op =>
    simp only [resume, same.unary]
    exact m.giveOrFail_preface home front position _
  | assignName name =>
    obtain ⟨position, namePosition, expr, runs⟩ := ofFrame
    have absent := Node.passes_of_everywhere (Node.everywhere_part runs.everywhere .target)
    simp only [Expr.avoids, decide_eq_true_eq] at absent
    simp only [resume, preface, m.store.assign_preface absent]
  | assignValue position subject key =>
    simp only [resume, same.place]
    cases m.store.place subject key with
    | ok place => cases place <;> rfl
    | error cause => rfl
  | declare flavour name =>
    obtain ⟨position, expr, runs⟩ := ofFrame
    have absent := Layout.passes_of_runs runs
    simp only [Expr.avoids, decide_eq_true_eq] at absent
    simp only [resume, preface, m.store.declare_preface fun _ => absent]
  | callee position arguments => exact m.evaluateArguments_preface home front position value [] _
  | arguments position callee done rest =>
    exact m.evaluateArguments_preface home front position callee (value :: done) rest
  | member position key =>
    simp only [resume, same.member]
    exact m.giveOrFail_preface home front position _
  | key position subject =>
    simp only [resume, same.member]
    exact m.giveOrFail_preface home front position _
  | ternary consequent alternate =>
    simp only [resume, same.isTruthy]
    rfl
  | branch consequent alternate =>
    simp only [resume, same.isTruthy]
    rfl
  | whileTest test body last =>
    simp only [resume, same.isTruthy]
    split <;> rfl
  | forTest loop last =>
    simp only [resume, same.isTruthy]
    split <;> rfl
  | debug done rest =>
    simp only [resume, same.repr]
    exact m.evaluateShown_preface home front _ rest
  | sequence rest => cases rest <;> rfl
  | parameter call name rest =>
    simp only [resume, preface,
      m.store.declare_preface fun same => absurd same (Layout.OfCall.apart ofFrame)]
  | _ => rfl

/-- A step of code that avoids names does not notice them. -/
theorem step_preface
    (holds : (Layout.passing region (Expr.avoids (front.map (·.1))) home).Holds m)
    (known : home.index < m.store.scopes.size) :
    (m.preface home front).step = m.step.preface home front := by
  obtain ⟨control, scope, stack, store⟩ := m
  have ofControl := holds.code.control
  cases control with
  | evaluate expr => exact evaluate_preface ofControl.everywhere
  | execute statement => exact execute_preface known statement
  | run body => exact runBody_preface home front _ body
  | give value =>
    cases stack with
    | nil => rfl
    | cons frame rest =>
      exact resume_preface
        (m := { control := .give value, scope := scope, stack := rest, store := store }) value
        holds.code.stack.1
  | unwind value =>
    cases stack with
    | nil => rfl
    | cons frame rest =>
      exact leave_preface home front
        { control := .unwind value, scope := scope, stack := rest, store := store } value frame
  | apply callee arguments position => exact apply_preface known callee arguments position
  | bind call parameters => exact bindParameters_preface (Layout.OfCall.apart ofControl) parameters
  | await request position => rfl
  | failed fault => rfl
  | exited status => rfl

/-! ## Runs -/

/-- A run ends alike beside further names of the global scope. -/
theorem outcome?_preface :
    (m.preface home front).outcome? = m.outcome? :=
  rfl

variable {State : Type} {origin : ScopeRef} (host : Host State)

/-- An advance of code that avoids the names in front is the same beside them. -/
theorem advance_preface
    (follows : (Layout.passing region (Expr.avoids (front.map (·.1))) home).Follows origin m)
    (known : home.index < m.store.scopes.size)
    (state : State) :
    (m.preface home front).advance host state =
      ((m.advance host state).1.preface home front, (m.advance host state).2) := by
  have sameRequest : (m.preface home front).request? = m.request? := rfl
  unfold advance
  rw [sameRequest]
  cases asks : m.request? with
  | none => exact Prod.ext (step_preface follows.holds known) rfl
  | some request =>
    obtain ⟨_, answer, next, _, _, reply⟩ := follows.installed.exists_reply asks host state
    simp only [reply]
    obtain ⟨control, scope, stack, store⟩ := m
    cases control with
    | await asked position => rfl
    | _ => cases asks

/-- A run of code that avoids names does not notice them. -/
theorem run_preface
    (follows : (Layout.passing region (Expr.avoids (front.map (·.1))) home).Follows origin m)
    (known : home.index < m.store.scopes.size)
    (limit : Nat)
    (state : State) :
    (m.preface home front).run host limit state =
      ((m.run host limit state).1.preface home front, (m.run host limit state).2) := by
  induction limit generalizing m state with
  | zero => rfl
  | succ limit ih =>
    simp only [run, outcome?_preface, advance_preface host follows known]
    split
    · rfl
    · have grown : (m.advance host state).1.store.Extends m.store :=
        advance_extends follows.installed host state
      exact ih (follows.advance host state) (grown.known known) _

end Names

end Machine
end TinyScript
