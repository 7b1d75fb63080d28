import TinyScript.Proofs.Machine.Natives
import TinyScript.Proofs.Store.Growth

/-!
# What a step does to the scopes

A step changes the scopes of a store in one of a few ways, each by code that is at hand.
-/

namespace TinyScript
namespace Machine

/-- A machine may give a value to a name: the name is bound, or an assignment to it is at hand. -/
def MayAssign (m : Machine) (name : String) : Prop :=
  (m.store.lookup? m.scope name).isSome = true ∨
    ∃ value rest, m.control = .give value ∧ m.stack = .assignName name :: rest

/-- What the next step of a machine may do to the scopes of its store. -/
inductive Edits (m : Machine) (later : Store) : Prop
  | keep : later.scopes = m.store.scopes → Edits m later
  | assign (name : String) (value : Value) :
      m.MayAssign name →
      later.scopes = (m.store.assign m.scope name value).scopes → Edits m later
  | makeFunction {position name exported parameters body} (value : Value) :
      m.control = .evaluate (.function position (some name) exported parameters body) →
      later.scopes = (m.store.declare m.scope name value true).scopes → Edits m later
  | declare {flavour name rest} (value : Value) (constant : Bool) :
      m.control = .give value →
      m.stack = .declare flavour name :: rest →
      later.scopes = (m.store.declare m.scope name value constant).scopes → Edits m later
  | bindMissing {call name parameters} :
      m.control = .bind call (.required name :: parameters) →
      later.scopes = (m.store.declare call.scope name .undefined false).scopes → Edits m later
  | bindDefault {call name parameters rest} (value : Value) :
      m.stack = .parameter call name parameters :: rest →
      later.scopes = (m.store.declare call.scope name value false).scopes → Edits m later
  | openLoop {position start test update body} :
      m.control = .execute (.forLoop position start test update body) →
      later.scopes = (m.store.newChild m.scope).2.scopes → Edits m later
  | openCall {function captured arguments position} :
      m.control = .apply (.function function captured) arguments position →
      later.scopes = (bindArguments (m.store.newChild captured).2 (m.store.newChild captured).1
        function.parameters arguments).scopes →
      Edits m later

/-! ## Steps that keep the scopes -/

variable (m : Machine)

theorem scopes_giveOrFail
    (position : Position)
    (result : Except Fault.Cause Value) :
    (m.giveOrFail position result).store.scopes = m.store.scopes := by
  cases result <;> rfl

theorem scopes_evaluateItems
    (done : List Value)
    (items : List Expr) :
    (m.evaluateItems done items).store.scopes = m.store.scopes := by
  cases items <;> rfl

theorem scopes_evaluateFields
    (done : Table Value)
    (fields : List Field) :
    (m.evaluateFields done fields).store.scopes = m.store.scopes := by
  match fields with
  | [] => rfl
  | .mk key value :: rest => rfl

theorem scopes_evaluateArguments
    (position : Position)
    (callee : Value)
    (done : List Value)
    (arguments : List Expr) :
    (m.evaluateArguments position callee done arguments).store.scopes = m.store.scopes := by
  cases arguments <;> rfl

theorem scopes_evaluateShown
    (done : List String)
    (values : List Expr) :
    (m.evaluateShown done values).store.scopes = m.store.scopes := by
  cases values <;> rfl

theorem scopes_runBody
    (body : List Stmt) :
    (m.runBody body).store.scopes = m.store.scopes := by
  cases body <;> rfl

/-- A function of the library changes no scope. -/
theorem scopes_actOrFail
    (position : Option Position)
    (result : Except Fault.Cause Action) :
    (m.actOrFail position result).store.scopes = m.store.scopes := by
  cases result with
  | ok action => cases action <;> rfl
  | error cause => rfl

theorem scopes_leave
    (value : Value)
    (frame : Frame) :
    (m.leave value frame).store.scopes = m.store.scopes := by
  cases frame <;> rfl

/-- Writing to an array or object changes no scope. -/
theorem scopes_put
    (store : Store)
    (value : Value)
    (place : Place) :
    (store.put value place).scopes = store.scopes := by
  cases place <;> rfl

/-! ## Steps that change the scopes -/

namespace Edits

variable {m : Machine}

/-- To begin with an expression edits scopes only for a step of a variable and for a named
function. -/
theorem evaluate
    {expr : Expr}
    (atHand : m.control = .evaluate expr) :
    m.Edits (m.evaluate expr).store := by
  cases expr with
  | array position items => exact .keep (m.scopes_evaluateItems [] items)
  | object position fields => exact .keep (m.scopes_evaluateFields .empty fields)
  | step position side op operand =>
    cases operand with
    | name namePosition name =>
      simp only [Machine.evaluate, stepName]
      split
      · rename_i isNumber
        refine .assign name _ (.inl ?_) rfl
        cases bound : m.store.lookup? m.scope name with
        | none => simp [Store.lookup, bound] at isNumber
        | some value => rfl
      · exact .keep rfl
    | _ => exact .keep rfl
  | assign position target value => cases target <;> exact .keep rfl
  | function position name exported parameters body =>
    cases name with
    | none => exact .keep rfl
    | some name => exact .makeFunction _ atHand rfl
  | _ => exact .keep rfl

/-- To begin with a statement edits scopes only for a loop, which gets one of its own. -/
theorem execute
    {statement : Stmt}
    (atHand : m.control = .execute statement) :
    m.Edits (m.execute statement).store := by
  cases statement with
  | forLoop position start test update body => exact .openLoop atHand rfl
  | debug position values => exact .keep (m.scopes_evaluateShown [] values)
  | _ => exact .keep rfl

/-- A call edits scopes only for a function of the program, which gets one of its own. -/
theorem apply
    {callee : Value}
    {arguments : List Value}
    {position : Option Position}
    (atHand : m.control = .apply callee arguments position) :
    m.Edits (m.apply callee arguments position).store := by
  cases callee with
  | function function captured => exact .openCall atHand rfl
  | native native => exact .keep (m.scopes_actOrFail position _)
  | method receiver method => exact .keep (m.scopes_actOrFail position _)
  | _ => exact .keep rfl

/-- Binding a parameter edits the scope of its call only. -/
theorem bindParameters
    {call : Activation}
    {parameters : List Parameter}
    (atHand : m.control = .bind call parameters) :
    m.Edits (m.bindParameters call parameters).store := by
  match parameters with
  | [] => exact .keep rfl
  | .required name :: rest => exact .bindMissing atHand rfl
  | .optional name default :: rest => exact .keep rfl

/-- The frame that a value is given to lies on the stack of `m`, and no more on that of the
machine that goes on with it. -/
theorem resume
    {value : Value}
    (gives : m.control = .give value)
    {frame : Frame}
    {rest : List Frame}
    (atHand : m.stack = frame :: rest) :
    m.Edits (({ m with stack := rest } : Machine).resume value frame).store := by
  cases frame with
  | items done items => exact .keep (scopes_evaluateItems _ _ items)
  | fields done key fields => exact .keep (scopes_evaluateFields _ _ fields)
  | binary position op left => exact .keep (scopes_giveOrFail _ position _)
  | logical op operand =>
    simp only [Machine.resume]
    split <;> exact .keep rfl
  | unary position op => exact .keep (scopes_giveOrFail _ position _)
  | assignName name => exact .assign name value (.inr ⟨value, rest, gives, atHand⟩) rfl
  | assignValue position subject key =>
    simp only [Machine.resume]
    split
    · exact .keep (scopes_put m.store value _)
    · exact .keep rfl
  | declare flavour name => exact .declare value _ gives atHand rfl
  | callee position arguments =>
    exact .keep (scopes_evaluateArguments _ position value [] arguments)
  | arguments position callee done rest =>
    exact .keep (scopes_evaluateArguments _ position callee (value :: done) rest)
  | member position key => exact .keep (scopes_giveOrFail _ position _)
  | key position subject => exact .keep (scopes_giveOrFail _ position _)
  | whileTest test body last =>
    simp only [Machine.resume]
    split <;> exact .keep rfl
  | forTest loop last =>
    simp only [Machine.resume]
    split <;> exact .keep rfl
  | debug done rest => exact .keep (scopes_evaluateShown _ _ rest)
  | sequence rest => cases rest <;> exact .keep rfl
  | parameter call name parameters => exact .bindDefault value atHand rfl
  | _ => exact .keep rfl

/-- A step changes the scopes in one of these ways. -/
theorem step
    (m : Machine) :
    m.Edits m.step.store := by
  unfold Machine.step
  cases atHand : m.control with
  | evaluate expr => exact evaluate atHand
  | execute statement => exact execute atHand
  | run body => exact .keep (m.scopes_runBody body)
  | give value =>
    cases onStack : m.stack with
    | nil => exact .keep rfl
    | cons frame rest =>
      have goesOn := resume atHand onStack
      rw [atHand] at goesOn
      exact goesOn
  | unwind value =>
    cases m.stack with
    | nil => exact .keep rfl
    | cons frame rest => exact .keep (scopes_leave _ value frame)
  | apply callee arguments position => exact apply atHand
  | bind call parameters => exact bindParameters atHand
  | await request position => exact .keep rfl
  | failed fault => exact .keep rfl
  | exited status => exact .keep rfl

end Edits

/-- A step only adds scopes. -/
theorem step_extends
    (m : Machine) :
    m.step.store.Extends m.store := by
  have of_scopes : ∀ {store : Store}, m.step.store.scopes = store.scopes →
      store.Extends m.store → m.step.store.Extends m.store :=
    fun same grown => (Store.extends_of_scopes_eq same).trans grown
  cases Edits.step m with
  | keep same => exact Store.extends_of_scopes_eq same
  | assign name value _ same => exact of_scopes same (m.store.extends_assign m.scope name value)
  | makeFunction value _ same => exact of_scopes same (m.store.extends_declare m.scope _ value true)
  | declare value constant _ _ same =>
    exact of_scopes same (m.store.extends_declare m.scope _ value constant)
  | bindMissing _ same => exact of_scopes same (m.store.extends_declare _ _ .undefined false)
  | bindDefault value _ same => exact of_scopes same (m.store.extends_declare _ _ value false)
  | openLoop _ same => exact of_scopes same (m.store.extends_newChild m.scope)
  | openCall _ same =>
    exact of_scopes same ((Store.extends_bindArguments _ _ _ _).trans (m.store.extends_newChild _))

variable {State : Type} {m : Machine}

/-- The scopes of a store are there after an advance, at the same places in their chains. -/
theorem advance_extends
    (installed : m.Installed)
    (host : Host State)
    (state : State) :
    (m.advance host state).1.store.Extends m.store := by
  rcases installed.store_advance host state with steps | same
  · rw [steps]
    exact m.step_extends
  · rw [same]
    exact .refl _

/-- A run without functions of the surrounding program only adds scopes. -/
theorem run_extends
    (installed : m.Installed)
    (host : Host State)
    (limit : Nat)
    (state : State) :
    (m.run host limit state).1.store.Extends m.store := by
  have both :=
    run_preserves (p := fun later => later.Installed ∧ later.store.Extends m.store) host
      (fun later state ⟨installed, grown⟩ =>
        ⟨installed.advance host state, (advance_extends installed host state).trans grown⟩)
      ⟨installed, .refl _⟩ limit state
  exact both.2

end Machine
end TinyScript
