import TinyScript.Proofs.Machine.Layout
import TinyScript.Proofs.Store.Keeping

/-!
# What a run keeps

No step takes a name or a constant away from a scope, moves a scope to another place, or
changes what has been written.
-/

namespace TinyScript
namespace Machine

/-! ## Names -/

/-- A step only adds names and constants. -/
theorem step_keepsNames
    (m : Machine) :
    m.step.store.KeepsNames m.store := by
  have of_scopes : ∀ {store : Store}, m.step.store.scopes = store.scopes →
      store.KeepsNames m.store → m.step.store.KeepsNames m.store :=
    fun same keeps => (Store.keepsNames_of_scopes_eq same).trans keeps
  cases Edits.step m with
  | keep same => exact Store.keepsNames_of_scopes_eq same
  | assign name value _ same => exact of_scopes same (m.store.keepsNames_assign m.scope name value)
  | makeFunction value _ same =>
    exact of_scopes same (m.store.keepsNames_declare m.scope _ value true)
  | declare value constant _ _ same =>
    exact of_scopes same (m.store.keepsNames_declare m.scope _ value constant)
  | bindMissing _ same => exact of_scopes same (m.store.keepsNames_declare _ _ .undefined false)
  | bindDefault value _ same => exact of_scopes same (m.store.keepsNames_declare _ _ value false)
  | openLoop _ same => exact of_scopes same (m.store.keepsNames_newChild m.scope)
  | openCall _ same =>
    exact of_scopes same
      ((Store.keepsNames_bindArguments _ _ _ _).trans (m.store.keepsNames_newChild _))

/-! ## Output -/

section Output

variable (m : Machine)

/-- Assignments write nothing to the output. -/
theorem output_assign
    (store : Store)
    (scope : ScopeRef)
    (name : String)
    (value : Value) :
    (store.assign scope name value).output = store.output := by
  rcases store.exists_assign_eq scope name value with same | ⟨binder, _, same⟩ <;> rw [same]
  rfl

theorem output_bindArguments
    (store : Store)
    (scope : ScopeRef)
    (parameters : List Parameter)
    (arguments : List Value) :
    (bindArguments store scope parameters arguments).output = store.output :=
  Store.bindArguments_preserves (P := fun later => later.output = store.output)
    (fun _ _ _ same => same) rfl parameters arguments

theorem output_put
    (store : Store)
    (value : Value)
    (place : Place) :
    (store.put value place).output = store.output := by
  cases place <;> rfl

theorem output_giveOrFail
    (position : Position)
    (result : Except Fault.Cause Value) :
    (m.giveOrFail position result).store.output = m.store.output := by
  cases result <;> rfl

theorem output_evaluateItems
    (done : List Value)
    (items : List Expr) :
    (m.evaluateItems done items).store.output = m.store.output := by
  cases items <;> rfl

theorem output_evaluateFields
    (done : Table Value)
    (fields : List Field) :
    (m.evaluateFields done fields).store.output = m.store.output := by
  match fields with
  | [] => rfl
  | .mk key value :: rest => rfl

theorem output_evaluateArguments
    (position : Position)
    (callee : Value)
    (done : List Value)
    (arguments : List Expr) :
    (m.evaluateArguments position callee done arguments).store.output = m.store.output := by
  cases arguments <;> rfl

/-- A `debug` statement writes its line behind what is there already. -/
theorem continues_evaluateShown
    (done : List String)
    (values : List Expr) :
    (m.evaluateShown done values).store.output.Continues m.store.output := by
  cases values with
  | nil => exact .write m.store.output _
  | cons value values => exact .of_eq rfl

theorem output_runBody
    (body : List Stmt) :
    (m.runBody body).store.output = m.store.output := by
  cases body <;> rfl

/-- Only printing and asking write. -/
theorem continues_actOrFail
    (position : Option Position)
    (result : Except Fault.Cause Action) :
    (m.actOrFail position result).store.output.Continues m.store.output := by
  cases result with
  | error cause => exact .of_eq rfl
  | ok action =>
    cases action with
    | print line => exact .write m.store.output _
    | ask prompt request => exact .write m.store.output prompt
    | _ => exact .of_eq rfl

/-- To begin with an expression writes nothing to the output. -/
theorem output_evaluate
    (expr : Expr) :
    (m.evaluate expr).store.output = m.store.output := by
  cases expr with
  | array position items => exact m.output_evaluateItems [] items
  | object position fields => exact m.output_evaluateFields .empty fields
  | step position side op operand =>
    cases operand with
    | name namePosition name =>
      simp only [evaluate, stepName]
      split
      · exact output_assign m.store m.scope name _
      · rfl
    | _ => rfl
  | assign position target value => cases target <;> rfl
  | function position name exported parameters body => cases name <;> rfl
  | _ => rfl

/-- To begin with a statement writes only behind what is there already. -/
theorem continues_execute
    (statement : Stmt) :
    (m.execute statement).store.output.Continues m.store.output := by
  cases statement with
  | debug position values => exact m.continues_evaluateShown [] values
  | _ => exact .of_eq rfl

/-- Calls write only behind what is there already. -/
theorem continues_apply
    (callee : Value)
    (arguments : List Value)
    (position : Option Position) :
    (m.apply callee arguments position).store.output.Continues m.store.output := by
  cases callee with
  | function function captured => exact .of_eq (output_bindArguments _ _ _ arguments)
  | native native => exact m.continues_actOrFail position _
  | method receiver method => exact m.continues_actOrFail position _
  | _ => exact .of_eq rfl

/-- Binding a parameter writes nothing to the output. -/
theorem output_bindParameters
    (call : Activation)
    (parameters : List Parameter) :
    (m.bindParameters call parameters).store.output = m.store.output := by
  match parameters with
  | [] => rfl
  | .required name :: rest => rfl
  | .optional name default :: rest => rfl

/-- Going on with a value writes only behind what is there already. -/
theorem continues_resume
    (value : Value)
    (frame : Frame) :
    (m.resume value frame).store.output.Continues m.store.output := by
  cases frame with
  | items done rest => exact .of_eq (m.output_evaluateItems _ rest)
  | fields done key rest => exact .of_eq (m.output_evaluateFields _ rest)
  | binary position op left => exact .of_eq (m.output_giveOrFail position _)
  | logical op operand =>
    simp only [resume]
    split <;> exact .of_eq rfl
  | unary position op => exact .of_eq (m.output_giveOrFail position _)
  | assignName name => exact .of_eq (output_assign m.store m.scope name value)
  | assignValue position subject key =>
    simp only [resume]
    split
    · exact .of_eq (output_put m.store value _)
    · exact .of_eq rfl
  | callee position arguments =>
    exact .of_eq (m.output_evaluateArguments position value [] arguments)
  | arguments position callee done rest =>
    exact .of_eq (m.output_evaluateArguments position callee _ rest)
  | member position key => exact .of_eq (m.output_giveOrFail position _)
  | key position subject => exact .of_eq (m.output_giveOrFail position _)
  | whileTest test body last =>
    simp only [resume]
    split <;> exact .of_eq rfl
  | forTest loop last =>
    simp only [resume]
    split <;> exact .of_eq rfl
  | debug done rest => exact m.continues_evaluateShown _ rest
  | sequence rest => cases rest <;> exact .of_eq rfl
  | _ => exact .of_eq rfl

theorem output_leave
    (value : Value)
    (frame : Frame) :
    (m.leave value frame).store.output = m.store.output := by
  cases frame <;> rfl

/-- A step only writes behind what has been written. -/
theorem step_continues :
    m.step.store.output.Continues m.store.output := by
  obtain ⟨control, scope, stack, store⟩ := m
  cases control with
  | evaluate expr => exact .of_eq (output_evaluate _ expr)
  | execute statement => exact continues_execute _ statement
  | run body => exact .of_eq (output_runBody _ body)
  | give value =>
    cases stack with
    | nil => exact .of_eq rfl
    | cons frame rest =>
      exact continues_resume
        { control := .give value, scope := scope, stack := rest, store := store } value frame
  | unwind value =>
    cases stack with
    | nil => exact .of_eq rfl
    | cons frame rest => exact .of_eq (output_leave _ value frame)
  | apply callee arguments position => exact continues_apply _ callee arguments position
  | bind call parameters => exact .of_eq (output_bindParameters _ call parameters)
  | await request position => exact .of_eq rfl
  | failed fault => exact .of_eq rfl
  | exited status => exact .of_eq rfl

end Output

/-! ## Runs -/

/-- A step keeps the store. -/
theorem step_keeps
    (m : Machine) :
    m.step.store.Keeps m.store :=
  ⟨m.step_extends, m.step_keepsNames, m.step_continues⟩

variable {State : Type} {m : Machine}

/-- A run without functions of the surrounding program keeps the store. -/
theorem run_keeps
    (installed : m.Installed)
    (host : Host State)
    (limit : Nat)
    (state : State) :
    (m.run host limit state).1.store.Keeps m.store :=
  installed.run_store (p := fun store => store.Keeps m.store) host
    (fun later keeps => later.step_keeps.trans keeps) (.refl m.store) limit state

end Machine

/-! ## The forest of scopes -/

/-- The layout in which any code may be run in any scope that there is. -/
def Layout.known : Layout where
  region := .whole
  Runs store scope _ := scope.index < store.scopes.size
  within _ := trivial
  grows grown isKnown := grown.known isKnown
  part isKnown _ := isKnown
  inside {store scope _ _} _ _ := store.newChild_known scope

namespace Store.Forest

variable {m : Machine}

/-- A step makes a scope inside the one at hand, or inside the one that a function was made in. -/
theorem step
    (forest : m.store.Forest)
    (holds : Layout.known.Holds m) :
    m.step.store.Forest := by
  have grown := m.step_extends
  have of_size : m.step.store.scopes.size = m.store.scopes.size → m.step.store.Forest :=
    forest.of_size_eq grown
  have of_scopes : ∀ {store : Store}, m.step.store.scopes = store.scopes → store.Forest →
      m.step.store.Forest :=
    fun same forest => forest.of_size_eq (Store.extends_of_scopes_eq same) (by rw [same])
  cases Machine.Edits.step m with
  | keep same => exact of_size (by rw [same])
  | assign name value _ same => exact of_size (by rw [same, size_assign])
  | makeFunction value _ same => exact of_size (by rw [same, size_declare])
  | declare value constant _ _ same => exact of_size (by rw [same, size_declare])
  | bindMissing _ same => exact of_size (by rw [same, size_declare])
  | bindDefault value _ same => exact of_size (by rw [same, size_declare])
  | openLoop atHand same =>
    have runs := holds.code.control
    rw [atHand] at runs
    exact of_scopes same (forest.newChild runs)
  | openCall atHand same =>
    have ofCallee := holds.values.control
    rw [atHand] at ofCallee
    exact of_scopes same ((forest.newChild ofCallee.1).of_size_eq
      (Store.extends_bindArguments _ _ _ _) (size_bindArguments _ _ _ _))

variable {State : Type} {origin : ScopeRef}

/-- A run keeps the scopes of a store a forest. -/
theorem run
    (forest : m.store.Forest)
    (follows : Layout.known.Follows origin m)
    (host : Host State)
    (limit : Nat)
    (state : State) :
    (m.run host limit state).1.store.Forest :=
  follows.run_store host (fun _ holds forest => forest.step holds) forest limit state

end Store.Forest
end TinyScript
