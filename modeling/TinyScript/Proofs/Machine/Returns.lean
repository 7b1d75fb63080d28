import TinyScript.Session

/-!
# Where a return goes

A `return` leaves blocks and loops until it meets the end of the function that it is
in.  It can only be executed where every frame up to that end is one of these, so no
expression is given up half-way, and a program without a `return` outside its
functions ends with a value, in the scope that it began in.
-/

namespace TinyScript

mutual

/-- No `return` is in a statement, but for the bodies of functions. -/
def Stmt.isReturnless : Stmt → Bool
  | .expr _ _ => true
  | .branch _ _ consequent alternate =>
    Stmt.areReturnless consequent && Stmt.areReturnless alternate
  | .whileLoop _ _ body => Stmt.areReturnless body
  | .forLoop _ _ _ _ body => Stmt.areReturnless body
  | .returnValue _ _ => false
  | .returnNothing _ => false
  | .debug _ _ => true
  | .use _ _ => true

/-- No `return` is in any of some statements, but for the bodies of functions. -/
def Stmt.areReturnless : List Stmt → Bool
  | [] => true
  | statement :: statements => statement.isReturnless && Stmt.areReturnless statements

end

namespace Machine

/-! ## Frames that a `return` can leave -/

/-- The nearest frames are those of blocks and loops, up to the end of a function, or up to the end
of the stack if a `return` may go so far. -/
def Returns (outside : Prop) : List Frame → Prop
  | [] => outside
  | .call _ :: _ => True
  | .sequence _ :: rest => Returns outside rest
  | .whileBody _ _ :: rest => Returns outside rest
  | .forBody _ :: rest => Returns outside rest
  | _ :: _ => False

/-- Statements can be run on a stack: a `return` can go up it, or there is none in them. -/
def Runnable (outside : Prop) (stack : List Frame) (statements : List Stmt) : Prop :=
  Stmt.areReturnless statements = true ∨ Returns outside stack

/-- Whatever statements a frame keeps can be run on the stack below it. -/
def FrameContained (outside : Prop) (stack : List Frame) : Frame → Prop
  | .branch consequent alternate =>
    Runnable outside stack consequent ∧ Runnable outside stack alternate
  | .whileTest _ body _ => Runnable outside stack body
  | .whileBody _ body => Runnable outside stack body
  | .forStart loop => Runnable outside stack loop.body
  | .forTest loop _ => Runnable outside stack loop.body
  | .forBody loop => Runnable outside stack loop.body
  | .forUpdate loop _ => Runnable outside stack loop.body
  | .returnValue => Returns outside stack
  | .sequence rest => Runnable outside stack rest
  | _ => True

/-- Every frame of a stack keeps statements only that can be run where they will be. -/
def StackContained (outside : Prop) : List Frame → Prop
  | [] => True
  | frame :: stack => FrameContained outside stack frame ∧ StackContained outside stack

/-- What a machine does can be done on a stack. -/
def ControlContained (outside : Prop) (stack : List Frame) : Control → Prop
  | .execute statement => Runnable outside stack [statement]
  | .run body => Runnable outside stack body
  | .unwind _ => Returns outside stack
  | _ => True

/-- A body may be run where its first statement and the others may be. -/
theorem runnable_cons
    {outside : Prop}
    {stack : List Frame}
    {statement : Stmt}
    {statements : List Stmt} :
    Runnable outside stack (statement :: statements) ↔
      Runnable outside stack [statement] ∧ Runnable outside stack statements := by
  simp only [Runnable, Stmt.areReturnless, Bool.and_eq_true, Bool.and_true]
  constructor
  · rintro (⟨first, rest⟩ | returns)
    · exact ⟨.inl first, .inl rest⟩
    · exact ⟨.inr returns, .inr returns⟩
  · rintro ⟨first | returns, rest | returns'⟩
    · exact .inl ⟨first, rest⟩
    · exact .inr returns'
    · exact .inr returns
    · exact .inr returns

/-! ## The scope to come back to -/

/-- The scope that a frame goes on in, when the work above it in a scope is done. -/
def scopeBelow (scope : ScopeRef) : Frame → ScopeRef
  | .call caller => caller
  | .forStart loop => loop.outer
  | .forTest loop _ => loop.outer
  | .forBody loop => loop.outer
  | .forUpdate loop _ => loop.outer
  | .parameter call _ _ => call.caller
  | _ => scope

/-- The scope that the last frame of a stack goes on in, when the work in a scope is done. -/
def homeOf (scope : ScopeRef) (stack : List Frame) : ScopeRef :=
  stack.foldl scopeBelow scope

/-- The scope that a machine comes back to. -/
def home (m : Machine) : ScopeRef :=
  match m.control with
  | .bind call _ => homeOf call.caller m.stack
  | _ => homeOf m.scope m.stack

/-! ## Steps -/

/-- No `return` of a machine goes further than the end of a function, and the machine comes back
to a scope. -/
structure Contained (outside : Prop) (origin : ScopeRef) (m : Machine) : Prop where
  control : ControlContained outside m.stack m.control
  stack : StackContained outside m.stack
  home : m.home = origin

/-- What lies below the work of a machine is contained. -/
structure Rests (outside : Prop) (origin : ScopeRef) (m : Machine) : Prop where
  stack : StackContained outside m.stack
  home : homeOf m.scope m.stack = origin

/-- Every program is contained where a `return` may end it. -/
theorem contained_ofProgram_outside
    (program : Program)
    (scope : ScopeRef)
    (store : Store) :
    (ofProgram program scope store).Contained True scope :=
  ⟨.inr trivial, trivial, rfl⟩

variable {m : Machine} {outside : Prop} {origin : ScopeRef}

/-- An operand is evaluated below the frame of its operation. -/
theorem contained_enter
    (expr : Expr)
    {frame : Frame}
    (stack : StackContained outside (frame :: m.stack))
    (home : homeOf m.scope (frame :: m.stack) = origin) :
    (m.enter expr frame).Contained outside origin :=
  ⟨trivial, stack, home⟩

namespace Rests

/-- A value is handed down to the frames that are there. -/
theorem give
    (rests : m.Rests outside origin)
    (value : Value) :
    (m.give value).Contained outside origin :=
  ⟨trivial, rests.stack, rests.home⟩

/-- A fault leaves no frames to come back to. -/
theorem fail
    (rests : m.Rests outside origin)
    (position : Option Position)
    (cause : Fault.Cause) :
    (m.fail position cause).Contained outside origin :=
  ⟨trivial, rests.stack, rests.home⟩

theorem giveOrFail
    (rests : m.Rests outside origin)
    (position : Position)
    (result : Except Fault.Cause Value) :
    (m.giveOrFail position result).Contained outside origin := by
  cases result with
  | ok value => exact rests.give value
  | error cause => exact rests.fail _ cause

theorem evaluateItems
    (rests : m.Rests outside origin)
    (done : List Value)
    (items : List Expr) :
    (m.evaluateItems done items).Contained outside origin := by
  cases items with
  | nil => exact ⟨trivial, rests.stack, rests.home⟩
  | cons item items => exact contained_enter item ⟨trivial, rests.stack⟩ rests.home

theorem evaluateFields
    (rests : m.Rests outside origin)
    (done : Table Value)
    (fields : List Field) :
    (m.evaluateFields done fields).Contained outside origin := by
  match fields with
  | [] => exact ⟨trivial, rests.stack, rests.home⟩
  | .mk key value :: rest => exact contained_enter value ⟨trivial, rests.stack⟩ rests.home

theorem evaluateArguments
    (rests : m.Rests outside origin)
    (position : Position)
    (callee : Value)
    (done : List Value)
    (arguments : List Expr) :
    (m.evaluateArguments position callee done arguments).Contained outside origin := by
  cases arguments with
  | nil => exact ⟨trivial, rests.stack, rests.home⟩
  | cons argument arguments => exact contained_enter argument ⟨trivial, rests.stack⟩ rests.home

theorem evaluateShown
    (rests : m.Rests outside origin)
    (done : List String)
    (values : List Expr) :
    (m.evaluateShown done values).Contained outside origin := by
  cases values with
  | nil => exact ⟨trivial, rests.stack, rests.home⟩
  | cons value values => exact contained_enter value ⟨trivial, rests.stack⟩ rests.home

/-- Parts of an expression that are to be evaluated come back to it. -/
theorem evaluate
    (rests : m.Rests outside origin)
    (expr : Expr) :
    (m.evaluate expr).Contained outside origin := by
  cases expr with
  | number position value => exact rests.give _
  | text position value => exact rests.give _
  | bool position value => exact rests.give _
  | undefined position => exact rests.give _
  | null position => exact rests.give _
  | name position name => exact rests.give _
  | array position items => exact rests.evaluateItems [] items
  | object position fields => exact rests.evaluateFields .empty fields
  | step position side op operand =>
    cases operand with
    | name namePosition name =>
      simp only [Machine.evaluate, stepName]
      split
      · exact ⟨trivial, rests.stack, rests.home⟩
      · exact rests.fail _ _
    | _ => exact rests.fail _ _
  | assign position target value =>
    cases target with
    | name namePosition name => exact contained_enter value ⟨trivial, rests.stack⟩ rests.home
    | member subjectPosition subject key =>
      exact contained_enter subject ⟨trivial, rests.stack⟩ rests.home
    | index subjectPosition subject key =>
      exact contained_enter subject ⟨trivial, rests.stack⟩ rests.home
    | _ => exact rests.fail _ _
  | function position name exported parameters body =>
    simp only [Machine.evaluate, makeFunction]
    split
    · exact rests.give _
    · exact ⟨trivial, rests.stack, rests.home⟩
  | _ => exact contained_enter _ ⟨trivial, rests.stack⟩ rests.home

/-- A `return` is only run from a body that has a function around it. -/
theorem runBody
    (rests : m.Rests outside origin)
    {body : List Stmt}
    (runnable : Runnable outside m.stack body) :
    (m.runBody body).Contained outside origin := by
  cases body with
  | nil => exact rests.give _
  | cons statement rest =>
    obtain ⟨ofFirst, ofRest⟩ := runnable_cons.1 runnable
    refine ⟨?_, ⟨ofRest, rests.stack⟩, rests.home⟩
    exact ofFirst.imp id id

/-- Parts of a statement that are to be run come back to it. -/
theorem execute
    (rests : m.Rests outside origin)
    {statement : Stmt}
    (runnable : Runnable outside m.stack [statement]) :
    (m.execute statement).Contained outside origin := by
  cases statement with
  | expr position value => exact ⟨trivial, rests.stack, rests.home⟩
  | branch position test consequent alternate =>
    have ofBoth : Runnable outside m.stack consequent ∧ Runnable outside m.stack alternate := by
      rcases runnable with returnless | returns
      · simp only [Stmt.areReturnless, Stmt.isReturnless, Bool.and_true, Bool.and_eq_true]
          at returnless
        exact ⟨.inl returnless.1, .inl returnless.2⟩
      · exact ⟨.inr returns, .inr returns⟩
    exact contained_enter test ⟨ofBoth, rests.stack⟩ rests.home
  | whileLoop position test body =>
    have ofBody : Runnable outside m.stack body := by
      simpa only [Runnable, Stmt.areReturnless, Stmt.isReturnless, Bool.and_true] using runnable
    exact contained_enter test ⟨ofBody, rests.stack⟩ rests.home
  | forLoop position start test update body =>
    have ofBody : Runnable outside m.stack body := by
      simpa only [Runnable, Stmt.areReturnless, Stmt.isReturnless, Bool.and_true] using runnable
    exact ⟨trivial, ⟨ofBody, rests.stack⟩, rests.home⟩
  | returnValue position value =>
    have returns : Returns outside m.stack :=
      runnable.resolve_left (by simp [Stmt.areReturnless, Stmt.isReturnless])
    exact contained_enter value ⟨returns, rests.stack⟩ rests.home
  | returnNothing position =>
    have returns : Returns outside m.stack :=
      runnable.resolve_left (by simp [Stmt.areReturnless, Stmt.isReturnless])
    exact ⟨returns, rests.stack, rests.home⟩
  | debug position values => exact rests.evaluateShown [] values
  | use position path => exact rests.give _

theorem actOrFail
    (rests : m.Rests outside origin)
    (position : Option Position)
    (result : Except Fault.Cause Action) :
    (m.actOrFail position result).Contained outside origin := by
  cases result with
  | ok action => cases action <;> exact ⟨trivial, rests.stack, rests.home⟩
  | error cause => exact rests.fail position cause

/-- The body of a function that is called comes back to the call. -/
theorem apply
    (rests : m.Rests outside origin)
    (callee : Value)
    (arguments : List Value)
    (position : Option Position) :
    (m.apply callee arguments position).Contained outside origin := by
  cases callee with
  | function function captured => exact ⟨trivial, rests.stack, rests.home⟩
  | native native => exact rests.actOrFail position _
  | method receiver method => exact rests.actOrFail position _
  | _ => exact rests.fail _ _

end Rests

/-- Defaults of parameters come back to the call that they are for. -/
theorem contained_bindParameters
    (call : Activation)
    (stack : StackContained outside m.stack)
    (home : homeOf call.caller m.stack = origin)
    (parameters : List Parameter) :
    (m.bindParameters call parameters).Contained outside origin := by
  match parameters with
  | [] => exact ⟨.inr trivial, ⟨trivial, stack⟩, home⟩
  | .required name :: rest => exact ⟨trivial, stack, home⟩
  | .optional name default :: rest => exact ⟨trivial, ⟨trivial, stack⟩, home⟩

/-- Whatever a frame goes on with comes back to the frames below it. -/
theorem contained_resume
    (value : Value)
    {frame : Frame}
    (ofFrame : FrameContained outside m.stack frame)
    (stack : StackContained outside m.stack)
    (home : homeOf m.scope (frame :: m.stack) = origin) :
    (m.resume value frame).Contained outside origin := by
  cases frame with
  | items done rest => exact Rests.evaluateItems ⟨stack, home⟩ _ rest
  | fields done key rest => exact Rests.evaluateFields ⟨stack, home⟩ _ rest
  | right position op operand => exact contained_enter operand ⟨trivial, stack⟩ home
  | binary position op left => exact Rests.giveOrFail ⟨stack, home⟩ position _
  | logical op operand =>
    simp only [resume]
    split
    · exact ⟨trivial, stack, home⟩
    · exact ⟨trivial, stack, home⟩
  | unary position op => exact Rests.giveOrFail ⟨stack, home⟩ position _
  | assignMember position key expr => exact contained_enter expr ⟨trivial, stack⟩ home
  | assignIndex position key expr => exact contained_enter key ⟨trivial, stack⟩ home
  | assignKey position subject expr => exact contained_enter expr ⟨trivial, stack⟩ home
  | assignValue position subject key =>
    simp only [resume]
    split
    · exact ⟨trivial, stack, home⟩
    · exact ⟨trivial, stack, home⟩
  | callee position arguments =>
    exact Rests.evaluateArguments ⟨stack, home⟩ position value [] arguments
  | arguments position callee done rest =>
    exact Rests.evaluateArguments ⟨stack, home⟩ position callee (value :: done) rest
  | member position key => exact Rests.giveOrFail ⟨stack, home⟩ position _
  | index position key => exact contained_enter key ⟨trivial, stack⟩ home
  | key position subject => exact Rests.giveOrFail ⟨stack, home⟩ position _
  | branch consequent alternate =>
    refine ⟨?_, stack, home⟩
    simp only [resume]
    split
    · exact ofFrame.1
    · exact ofFrame.2
  | whileTest test body last =>
    simp only [resume]
    split
    · exact ⟨ofFrame.imp id id, ⟨ofFrame, stack⟩, home⟩
    · exact ⟨trivial, stack, home⟩
  | whileBody test body => exact contained_enter test ⟨ofFrame, stack⟩ home
  | forStart loop => exact contained_enter loop.test ⟨ofFrame, stack⟩ home
  | forTest loop last =>
    simp only [resume]
    split
    · exact ⟨ofFrame.imp id id, ⟨ofFrame, stack⟩, home⟩
    · exact ⟨trivial, stack, home⟩
  | forBody loop => exact contained_enter loop.update ⟨ofFrame, stack⟩ home
  | forUpdate loop last => exact contained_enter loop.test ⟨ofFrame, stack⟩ home
  | returnValue => exact ⟨ofFrame, stack, home⟩
  | debug done rest => exact Rests.evaluateShown ⟨stack, home⟩ _ rest
  | sequence rest =>
    cases rest with
    | nil => exact ⟨trivial, stack, home⟩
    | cons statement rest => exact ⟨ofFrame, stack, home⟩
  | _ => exact ⟨trivial, stack, home⟩

/-- A return leaves one frame after the other, down to the call. -/
theorem contained_leave
    (value : Value)
    {frame : Frame}
    (returns : Returns outside (frame :: m.stack))
    (stack : StackContained outside m.stack)
    (home : homeOf m.scope (frame :: m.stack) = origin) :
    (m.leave value frame).Contained outside origin := by
  cases frame with
  | sequence rest => exact ⟨returns, stack, home⟩
  | whileBody test body => exact ⟨returns, stack, home⟩
  | forBody loop => exact ⟨returns, stack, home⟩
  | call caller => exact ⟨trivial, stack, home⟩
  | _ => exact returns.elim

/-- No step lets a `return` go further, or loses the scope to come back to. -/
theorem Contained.step
    (contained : m.Contained outside origin) :
    m.step.Contained outside origin := by
  obtain ⟨control, scope, stack, store⟩ := m
  have ofControl := contained.control
  cases control with
  | evaluate expr => exact Rests.evaluate ⟨contained.stack, contained.home⟩ expr
  | execute statement => exact Rests.execute ⟨contained.stack, contained.home⟩ ofControl
  | run body => exact Rests.runBody ⟨contained.stack, contained.home⟩ ofControl
  | give value =>
    cases stack with
    | nil => exact contained
    | cons frame rest =>
      exact contained_resume
        (m := { control := .give value, scope := scope, stack := rest, store := store }) value
        contained.stack.1 contained.stack.2 contained.home
  | unwind value =>
    cases stack with
    | nil => exact contained
    | cons frame rest =>
      exact contained_leave
        (m := { control := .unwind value, scope := scope, stack := rest, store := store }) value
        ofControl contained.stack.2 contained.home
  | apply callee arguments position =>
    exact Rests.apply ⟨contained.stack, contained.home⟩ callee arguments position
  | bind call parameters =>
    exact contained_bindParameters call contained.stack contained.home parameters
  | await request position => exact contained
  | failed fault => exact contained
  | exited status => exact contained

/-! ## Runs -/

variable {State : Type} (host : Host State)

/-- An advance keeps returns inside their functions, and the scope to come back to. -/
theorem Contained.advance
    (contained : m.Contained outside origin)
    (state : State) :
    (m.advance host state).1.Contained outside origin := by
  unfold Machine.advance
  cases asks : m.request? with
  | none => exact contained.step
  | some request =>
    obtain ⟨control, scope, stack, store⟩ := m
    cases control with
    | await asked position =>
      simp only
      cases (host.reply request store state).1 with
      | ok value => exact ⟨trivial, contained.stack, contained.home⟩
      | error message => exact ⟨trivial, contained.stack, contained.home⟩
    | _ => cases asks

/-- A run keeps returns inside their functions, and the scope to come back to. -/
theorem Contained.run
    (contained : m.Contained outside origin)
    (limit : Nat)
    (state : State) :
    (m.run host limit state).1.Contained outside origin := by
  exact run_preserves host (fun _ state contained => contained.advance host state) contained
    limit state

/-- A contained machine that is at the end of its stack without a fault has a value to give, in the
scope that it was to come back to. -/
theorem Contained.of_completed
    (contained : m.Contained False origin)
    {value : Value}
    (completed : m.outcome? = some (.completed value)) :
    m.control = .give value ∧ m.scope = origin ∧ m.stack = [] := by
  obtain ⟨control, scope, stack, store⟩ := m
  cases control with
  | give given =>
    cases stack with
    | nil =>
      cases completed
      exact ⟨rfl, contained.home, rfl⟩
    | cons frame stack => cases completed
  | unwind given =>
    cases stack with
    | nil => exact contained.control.elim
    | cons frame stack => cases completed
  | _ => cases stack <;> cases completed

/-- A run that is over has come back to the scope that its frames led to. -/
theorem scope_of_completed
    (home : m.home = origin)
    {value : Value}
    (completed : m.outcome? = some (.completed value)) :
    m.scope = origin := by
  obtain ⟨control, scope, stack, store⟩ := m
  cases control with
  | give given =>
    cases stack with
    | nil => exact home
    | cons frame stack => cases completed
  | unwind given =>
    cases stack with
    | nil => exact home
    | cons frame stack => cases completed
  | _ => cases stack <;> cases completed

end Machine
end TinyScript
