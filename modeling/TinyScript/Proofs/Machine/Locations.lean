import TinyScript.Proofs.Machine.Moments
import TinyScript.Proofs.Syntax.Nesting

/-!
# Where a run fails

What a machine does at the moment is done for the innermost operation in progress: it is a
part of its node, or of the function that it calls.  Only an operation fails whose operands
have their values, and the fault is placed at the node of that operation.
-/

namespace TinyScript

/-! ## The nodes of a piece of code -/

/-- A node is a part of a piece of code, but not of a function that is made there. -/
inductive Node.Covers (code : Node) : Node → Prop
  | self : Covers code code
  | part {node part} : Covers code node → Node.Part node part →
      (∀ function, part ≠ .function function) → Covers code part
  | inside {node part} : Covers code node → Node.Inside node part → Covers code part

namespace Node.Covers

variable {code node : Node}

/-- Code that covers a node covers the expressions that are direct parts of it. -/
theorem expr
    (covers : code.Covers node)
    {expr : Expr}
    (part : Node.Part node (.expr expr)) :
    code.Covers (.expr expr) :=
  .part covers part (by simp)

/-- Code that covers a node covers the statements that are direct parts of it. -/
theorem stmt
    (covers : code.Covers node)
    {statement : Stmt}
    (part : Node.Part node (.stmt statement)) :
    code.Covers (.stmt statement) :=
  .part covers part (by simp)

end Node.Covers

/-- Every one of some expressions is a part of a piece of code. -/
def Node.CoversEach (code : Node) (exprs : List Expr) : Prop :=
  ∀ expr ∈ exprs, code.Covers (.expr expr)

/-- Every one of some statements is a part of a piece of code. -/
def Node.CoversAll (code : Node) (statements : List Stmt) : Prop :=
  ∀ statement ∈ statements, code.Covers (.stmt statement)

/-- What runs for an operation in progress: the function that it calls, or else its own operands. -/
def Pending.code (pending : Pending) : Node :=
  match pending.function with
  | none => .expr pending.expr
  | some function => .function function

/-- What runs for the latest of some operations in progress, or the program where there is none. -/
def Pending.codeOf (program : Program) : List Pending → Node
  | [] => .body program
  | pending :: _ => pending.code

/-- Each one of some operations in progress is a part of what runs for the next one, and the last
one is a part of the program. -/
def Pending.Nested (program : Program) : List Pending → Prop
  | [] => True
  | pending :: outer =>
    (Pending.codeOf program outer).Covers (.expr pending.expr) ∧ Pending.Nested program outer

/-! ## The code of a machine -/

/-- A frame is a stage of an operation. -/
inductive Frame.StageOf : Expr → Frame → Prop
  | right {position op left right} :
      StageOf (.binary position op left right) (.right position op right)
  | binary {position op left right value} :
      StageOf (.binary position op left right) (.binary position op value)
  | unary {position op operand} : StageOf (.unary position op operand) (.unary position op)
  | assignName {position place name value} :
      StageOf (.assign position (.name place name) value) (.assignName name)
  | assignMember {position place subject key value} :
      StageOf (.assign position (.member place subject key) value)
        (.assignMember position key value)
  | assignIndex {position place subject key value} :
      StageOf (.assign position (.index place subject key) value)
        (.assignIndex position key value)
  | assignKey {position target owner value} :
      StageOf (.assign position target value) (.assignKey position owner value)
  | assignValue {position target owner key value} :
      StageOf (.assign position target value) (.assignValue position owner key)
  | callee {position callee arguments} :
      StageOf (.call position callee arguments) (.callee position arguments)
  | arguments {position callee arguments value done rest} : (∀ expr ∈ rest, expr ∈ arguments) →
      StageOf (.call position callee arguments) (.arguments position value done rest)
  | member {position subject key} : StageOf (.member position subject key) (.member position key)
  | index {position subject key} : StageOf (.index position subject key) (.index position key)
  | key {position subject key owner} :
      StageOf (.index position subject key) (.key position owner)

/-- The test, the update and the body of a loop are parts of a piece of code. -/
structure Loop.In (code : Node) (loop : Loop) : Prop where
  test : code.Covers (.expr loop.test)
  update : code.Covers (.expr loop.update)
  body : code.CoversAll loop.body

/-- An activation runs the body of a function, and the parameters that remain are of that
function. -/
structure Activation.Of (call : Activation) (function : Function) (remaining : List Parameter) :
    Prop where
  body : call.body = function.body
  parameters : ∀ parameter ∈ remaining, parameter ∈ function.parameters

/-- A call whose next parameter has been bound is still one of the same function. -/
theorem Activation.Of.tail
    {call : Activation}
    {function : Function}
    {parameter : Parameter}
    {remaining : List Parameter}
    (isOf : call.Of function (parameter :: remaining)) :
    call.Of function remaining :=
  ⟨isOf.body, fun other mem => isOf.parameters other (List.mem_cons_of_mem parameter mem)⟩

namespace Machine

/-- A frame is no stage of an operation, and whatever it keeps is a part of a piece of code. -/
def FrameIn (code : Node) : Frame → Prop
  | .items _ rest => code.CoversEach rest
  | .fields _ _ rest => ∀ key value, Field.mk key value ∈ rest → code.Covers (.expr value)
  | .logical _ operand => code.Covers (.expr operand)
  | .declare _ _ | .typeof | .returnValue => True
  | .ternary consequent alternate =>
    code.Covers (.expr consequent) ∧ code.Covers (.expr alternate)
  | .branch consequent alternate => code.CoversAll consequent ∧ code.CoversAll alternate
  | .whileTest test body _ => code.Covers (.expr test) ∧ code.CoversAll body
  | .whileBody test body => code.Covers (.expr test) ∧ code.CoversAll body
  | .forStart loop => loop.In code
  | .forTest loop _ => loop.In code
  | .forBody loop => loop.In code
  | .forUpdate loop _ => loop.In code
  | .debug _ rest => code.CoversEach rest
  | .sequence rest => code.CoversAll rest
  | _ => False

/-- The frames of a stack belong to operations in progress, or are in what runs for these. -/
inductive StackIn (program : Program) : List Pending → List Frame → Prop
  | nil : StackIn program [] []
  | frame {trail frame rest} : FrameIn (Pending.codeOf program trail) frame →
      StackIn program trail rest → StackIn program trail (frame :: rest)
  | stage {trail expr frame rest} : frame.StageOf expr →
      (Pending.codeOf program trail).Covers (.expr expr) → StackIn program trail rest →
      StackIn program (.of expr :: trail) (frame :: rest)
  | parameter {trail expr function call name remaining rest} : call.Of function remaining →
      (Pending.codeOf program trail).Covers (.expr expr) → StackIn program trail rest →
      StackIn program ({ expr := expr, function := some function } :: trail)
        (.parameter call name remaining :: rest)
  | call {trail expr function caller rest} :
      (Pending.codeOf program trail).Covers (.expr expr) → StackIn program trail rest →
      StackIn program ({ expr := expr, function := some function } :: trail)
        (.call caller :: rest)

/-- A call whose callee and arguments are known is the latest operation in progress, above a
stack. -/
def CallIn (program : Program) (trail : List Pending) (position : Option Position)
    (stack : List Frame) : Prop :=
  ∃ place callee arguments outer,
    position = some place ∧ trail = .of (.call place callee arguments) :: outer ∧
      (Pending.codeOf program outer).Covers (.expr (.call place callee arguments)) ∧
      StackIn program outer stack

/-- A machine is in the middle of some operations, and goes on with what runs for the latest one. -/
def Stands (program : Program) (trail : List Pending) (m : Machine) : Prop :=
  match m.control with
  | .evaluate expr =>
    (Pending.codeOf program trail).Covers (.expr expr) ∧ StackIn program trail m.stack
  | .execute statement =>
    (Pending.codeOf program trail).Covers (.stmt statement) ∧ StackIn program trail m.stack
  | .run body => (Pending.codeOf program trail).CoversAll body ∧ StackIn program trail m.stack
  | .give _ | .unwind _ => StackIn program trail m.stack
  | .apply _ _ position | .await _ position => CallIn program trail position m.stack
  | .bind call remaining =>
    ∃ expr function outer, trail = { expr := expr, function := some function } :: outer ∧
      call.Of function remaining ∧ (Pending.codeOf program outer).Covers (.expr expr) ∧
      StackIn program outer m.stack
  | .failed _ | .exited _ => True

/-! ## Steps -/

section Steps

variable {program : Program} {trail : List Pending} {m : Machine}

/-- A result stands where the expression did that gave it. -/
theorem stands_giveOrFail
    (rests : StackIn program trail m.stack)
    (position : Position)
    (result : Except Fault.Cause Value) :
    (m.giveOrFail position result).Stands program trail := by
  cases result with
  | ok value => exact rests
  | error cause => trivial

/-- The next item of an array stands where the array does. -/
theorem stands_evaluateItems
    (rests : StackIn program trail m.stack)
    (done : List Value)
    {items : List Expr}
    (covers : (Pending.codeOf program trail).CoversEach items) :
    (m.evaluateItems done items).Stands program trail := by
  cases items with
  | nil => exact rests
  | cons item items =>
    obtain ⟨first, others⟩ := List.forall_mem_cons.1 covers
    exact ⟨first, .frame others rests⟩

/-- The next property of an object stands where the object does. -/
theorem stands_evaluateFields
    (rests : StackIn program trail m.stack)
    (done : Table Value)
    {fields : List Field}
    (covers : ∀ key value, Field.mk key value ∈ fields →
      (Pending.codeOf program trail).Covers (.expr value)) :
    (m.evaluateFields done fields).Stands program trail := by
  match fields with
  | [] => exact rests
  | .mk key value :: fields =>
    have others : FrameIn (Pending.codeOf program trail) (.fields done key fields) :=
      fun key value mem => covers key value (List.mem_cons_of_mem _ mem)
    exact ⟨covers key value List.mem_cons_self, .frame others rests⟩

/-- The next argument stands in the call that it is for, and the call is in progress from then
on. -/
theorem stands_evaluateArguments
    {position : Position}
    {callee : Expr}
    {all : List Expr}
    (covers : (Pending.codeOf program trail).Covers (.expr (.call position callee all)))
    (rests : StackIn program trail m.stack)
    (value : Value)
    (done : List Value)
    {arguments : List Expr}
    (among : ∀ expr ∈ arguments, expr ∈ all) :
    (m.evaluateArguments position value done arguments).Stands program
      (.of (.call position callee all) :: trail) := by
  cases arguments with
  | nil => exact ⟨position, callee, all, trail, rfl, rfl, covers, rests⟩
  | cons argument arguments =>
    obtain ⟨first, others⟩ := List.forall_mem_cons.1 among
    exact ⟨Node.Covers.self.expr (.argument first), .stage (.arguments others) covers rests⟩

/-- The next value of a `debug` statement stands where the statement does. -/
theorem stands_evaluateShown
    (rests : StackIn program trail m.stack)
    (done : List String)
    {values : List Expr}
    (covers : (Pending.codeOf program trail).CoversEach values) :
    (m.evaluateShown done values).Stands program trail := by
  cases values with
  | nil => exact rests
  | cons value values =>
    obtain ⟨first, others⟩ := List.forall_mem_cons.1 covers
    exact ⟨first, .frame others rests⟩

/-- The next statement of a body stands where the body does. -/
theorem stands_runBody
    (rests : StackIn program trail m.stack)
    {body : List Stmt}
    (covers : (Pending.codeOf program trail).CoversAll body) :
    (m.runBody body).Stands program trail := by
  cases body with
  | nil => exact rests
  | cons statement rest =>
    obtain ⟨first, others⟩ := List.forall_mem_cons.1 covers
    exact ⟨first, .frame others rests⟩

/-- Counting a variable up or down leaves the operations in progress as they are. -/
theorem stands_stepName
    (rests : StackIn program trail m.stack)
    (position : Position)
    (side : StepSide)
    (op : StepOp)
    (name : String) :
    (m.stepName position side op name).Stands program trail := by
  simp only [stepName]
  split
  · exact rests
  · trivial

/-- An operation begins with its first operand. -/
theorem stands_evaluate
    (rests : StackIn program trail m.stack)
    {expr : Expr}
    (covers : (Pending.codeOf program trail).Covers (.expr expr)) :
    (m.evaluate expr).Stands program (if expr.isOperation then .of expr :: trail else trail) := by
  cases expr with
  | array position items =>
    exact stands_evaluateItems rests [] fun item mem => covers.expr (.item mem)
  | object position fields =>
    exact stands_evaluateFields rests .empty fun key value mem => covers.expr (.property mem)
  | binary position op left right =>
    exact ⟨Node.Covers.self.expr .binaryLeft, .stage .right covers rests⟩
  | logical position op left right =>
    exact ⟨covers.expr .logicalLeft, .frame (covers.expr .logicalRight) rests⟩
  | unary position op operand =>
    exact ⟨Node.Covers.self.expr .unary, .stage .unary covers rests⟩
  | step position side op operand =>
    cases operand with
    | name place name => exact stands_stepName rests position side op name
    | _ => trivial
  | assign position target value =>
    cases target with
    | name place name =>
      exact ⟨Node.Covers.self.expr .assigned, .stage .assignName covers rests⟩
    | member place subject key =>
      exact ⟨(Node.Covers.self.expr .target).expr .member, .stage .assignMember covers rests⟩
    | index place subject key =>
      exact ⟨(Node.Covers.self.expr .target).expr .indexed, .stage .assignIndex covers rests⟩
    | _ => trivial
  | declare position flavour name value => exact ⟨covers.expr .declared, .frame trivial rests⟩
  | call position callee arguments =>
    exact ⟨Node.Covers.self.expr .callee, .stage .callee covers rests⟩
  | member position subject key =>
    exact ⟨Node.Covers.self.expr .member, .stage .member covers rests⟩
  | index position subject key =>
    exact ⟨Node.Covers.self.expr .indexed, .stage .index covers rests⟩
  | ternary position test consequent alternate =>
    exact ⟨covers.expr .test,
      .frame ⟨covers.expr .consequent, covers.expr .alternate⟩ rests⟩
  | typeof position operand => exact ⟨covers.expr .typeof, .frame trivial rests⟩
  | function position name exported parameters body => cases name <;> exact rests
  | _ => exact rests

/-- The parts of a statement stand where the statement does. -/
theorem stands_execute
    (rests : StackIn program trail m.stack)
    {statement : Stmt}
    (covers : (Pending.codeOf program trail).Covers (.stmt statement)) :
    (m.execute statement).Stands program trail := by
  cases statement with
  | expr position value => exact ⟨covers.expr .value, rests⟩
  | branch position test consequent alternate =>
    have both : FrameIn (Pending.codeOf program trail) (.branch consequent alternate) :=
      ⟨fun _ mem => covers.stmt (.branchThen mem), fun _ mem => covers.stmt (.branchElse mem)⟩
    exact ⟨covers.expr .branchTest, .frame both rests⟩
  | whileLoop position test body =>
    have loop : FrameIn (Pending.codeOf program trail) (.whileTest test body .void) :=
      ⟨covers.expr .whileTest, fun _ mem => covers.stmt (.whileBody mem)⟩
    exact ⟨covers.expr .whileTest, .frame loop rests⟩
  | forLoop position start test update body =>
    have loop :
        Loop.In (Pending.codeOf program trail)
          { outer := m.scope, test := test, update := update, body := body } :=
      ⟨covers.inside .test, covers.inside .update, fun _ mem => covers.inside (.statement mem)⟩
    exact ⟨covers.inside .start, .frame loop rests⟩
  | returnValue position value => exact ⟨covers.expr .returned, .frame trivial rests⟩
  | debug position values =>
    exact stands_evaluateShown rests [] fun value mem => covers.expr (.shown mem)
  | _ => exact rests

/-- A call is over when its result is given. -/
theorem stands_actOrFail
    {position : Option Position}
    (called : CallIn program trail position m.stack)
    (result : Except Fault.Cause Action) :
    (m.actOrFail position result).Stands program
      (match (m.actOrFail position result).control with
        | .give _ => trail.tail
        | _ => trail) := by
  have below : StackIn program trail.tail m.stack := by
    obtain ⟨place, callee, arguments, outer, rfl, rfl, covers, rests⟩ := called
    exact rests
  cases result with
  | error cause => trivial
  | ok action =>
    cases action with
    | ask prompt request => exact called
    | apply callee arguments => exact called
    | exit status => trivial
    | _ => exact below

/-- A default stands in the function that is called, and the call is in progress until it is
bound. -/
theorem stands_bindParameters
    {call : Activation}
    {function : Function}
    {remaining : List Parameter}
    (isOf : call.Of function remaining)
    {expr : Expr}
    (covers : (Pending.codeOf program trail).Covers (.expr expr))
    (rests : StackIn program trail m.stack) :
    (m.bindParameters call remaining).Stands program
      ({ expr := expr, function := some function } :: trail) := by
  match remaining with
  | [] =>
    refine ⟨fun statement mem => ?_, .call covers rests⟩
    rw [isOf.body] at mem
    exact (Node.Covers.self.inside .body).stmt (.statement mem)
  | .required name :: rest => exact ⟨expr, function, trail, rfl, isOf.tail, covers, rests⟩
  | .optional name default :: rest =>
    have isDefault := isOf.parameters _ List.mem_cons_self
    exact ⟨Node.Covers.self.expr (.default isDefault), .parameter isOf.tail covers rests⟩

/-- A frame that is no stage of an operation goes on with what runs for the latest one. -/
theorem stands_resume_of_frameIn
    (value : Value)
    {frame : Frame}
    (ofFrame : FrameIn (Pending.codeOf program trail) frame)
    (rests : StackIn program trail m.stack) :
    (m.resume value frame).Stands program trail := by
  cases frame with
  | items done rest => exact stands_evaluateItems rests _ ofFrame
  | fields done key rest => exact stands_evaluateFields rests _ ofFrame
  | logical op operand =>
    simp only [resume]
    split
    · exact rests
    · exact ⟨ofFrame, rests⟩
  | declare flavour name => exact rests
  | ternary consequent alternate =>
    refine ⟨?_, rests⟩
    split
    · exact ofFrame.1
    · exact ofFrame.2
  | typeof => exact rests
  | branch consequent alternate =>
    refine ⟨?_, rests⟩
    split
    · exact ofFrame.1
    · exact ofFrame.2
  | whileTest test body last =>
    simp only [resume]
    split
    · exact ⟨ofFrame.2, .frame ofFrame rests⟩
    · exact rests
  | whileBody test body => exact ⟨ofFrame.1, .frame ofFrame rests⟩
  | forStart loop => exact ⟨ofFrame.test, .frame ofFrame rests⟩
  | forTest loop last =>
    simp only [resume]
    split
    · exact ⟨ofFrame.body, .frame ofFrame rests⟩
    · exact rests
  | forBody loop => exact ⟨ofFrame.update, .frame ofFrame rests⟩
  | forUpdate loop last => exact ⟨ofFrame.test, .frame ofFrame rests⟩
  | returnValue => exact rests
  | debug done rest => exact stands_evaluateShown rests _ ofFrame
  | sequence rest =>
    cases rest with
    | nil => exact rests
    | cons statement rest => exact ⟨ofFrame, rests⟩
  | _ => exact ofFrame.elim

/-- A stage of an operation is followed by the next one, and the last one by what is around the
operation. -/
theorem stands_resume_of_stageOf
    (value : Value)
    {expr : Expr}
    {frame : Frame}
    (isStage : frame.StageOf expr)
    (covers : (Pending.codeOf program trail).Covers (.expr expr))
    (rests : StackIn program trail m.stack) :
    (m.resume value frame).Stands program
      (if frame.closes then trail else .of expr :: trail) := by
  cases isStage with
  | right => exact ⟨Node.Covers.self.expr .binaryRight, .stage .binary covers rests⟩
  | binary => exact stands_giveOrFail rests _ _
  | unary => exact stands_giveOrFail rests _ _
  | assignName => exact rests
  | assignMember => exact ⟨Node.Covers.self.expr .assigned, .stage .assignValue covers rests⟩
  | assignIndex =>
    exact ⟨(Node.Covers.self.expr .target).expr .key, .stage .assignKey covers rests⟩
  | assignKey => exact ⟨Node.Covers.self.expr .assigned, .stage .assignValue covers rests⟩
  | assignValue =>
    refine (?_ : Stands program trail _)
    simp only [resume]
    split
    · exact rests
    · trivial
  | callee => exact stands_evaluateArguments covers rests value [] fun _ => id
  | arguments among => exact stands_evaluateArguments covers rests _ _ among
  | member => exact stands_giveOrFail rests _ _
  | index => exact ⟨Node.Covers.self.expr .key, .stage .key covers rests⟩
  | key => exact stands_giveOrFail rests _ _

/-- A frame that closes an operation takes it off the trail. -/
theorem stands_resume
    (value : Value)
    {frame : Frame}
    (rests : StackIn program trail (frame :: m.stack)) :
    (m.resume value frame).Stands program (if frame.closes then trail.tail else trail) := by
  cases rests with
  | frame ofFrame below =>
    have stays : frame.closes = false := by
      cases frame with
      | _ => first | rfl | exact ofFrame.elim
    rw [stays]
    exact stands_resume_of_frameIn value ofFrame below
  | stage isStage covers below => exact stands_resume_of_stageOf value isStage covers below
  | @parameter outer expr function call name remaining _ isOf covers below =>
    exact ⟨expr, function, outer, rfl, isOf, covers, below⟩
  | call covers below => exact below

/-- A return leaves the operations that are in progress inside the function. -/
theorem stands_leave
    (value : Value)
    {frame : Frame}
    {outside : Prop}
    (returns : Returns outside (frame :: m.stack))
    (rests : StackIn program trail (frame :: m.stack)) :
    (m.leave value frame).Stands program (if frame.closes then trail.tail else trail) := by
  cases rests with
  | frame ofFrame below =>
    cases frame with
    | sequence rest => exact below
    | whileBody test body => exact below
    | forBody loop => exact below
    | call caller => exact ofFrame.elim
    | _ => exact returns.elim
  | stage isStage covers below => cases isStage <;> exact returns.elim
  | parameter => exact returns.elim
  | call covers below => exact below

/-- After a step, a machine is in the middle of the operations that are in progress then. -/
theorem Stands.step
    (stands : m.Stands program trail)
    {outside : Prop}
    {origin : ScopeRef}
    (contained : m.Contained outside origin)
    (asksNothing : m.request? = none) :
    m.step.Stands program (m.trailAfter trail) := by
  obtain ⟨control, scope, stack, store⟩ := m
  cases control with
  | evaluate expr => exact stands_evaluate stands.2 stands.1
  | execute statement => exact stands_execute stands.2 stands.1
  | run body => exact stands_runBody stands.2 stands.1
  | give value =>
    cases stack with
    | nil => exact stands
    | cons frame rest =>
      exact stands_resume
        (m := { control := .give value, scope := scope, stack := rest, store := store }) value
        stands
  | unwind value =>
    cases stack with
    | nil => exact stands
    | cons frame rest =>
      exact stands_leave
        (m := { control := .unwind value, scope := scope, stack := rest, store := store }) value
        contained.control stands
  | apply callee arguments position =>
    cases callee with
    | function function captured =>
      obtain ⟨place, calleeExpr, all, outer, rfl, rfl, covers, rests⟩ := stands
      exact ⟨_, function, outer, rfl, ⟨rfl, fun _ mem => List.mem_of_mem_drop mem⟩, covers,
        rests⟩
    | native native => exact stands_actOrFail stands _
    | method receiver method => exact stands_actOrFail stands _
    | _ => trivial
  | bind call remaining =>
    obtain ⟨expr, function, outer, rfl, isOf, covers, rests⟩ := stands
    exact stands_bindParameters isOf covers rests
  | await request position => cases asksNothing
  | failed fault => trivial
  | exited status => trivial

end Steps

variable {State : Type} {host : Host State} {program : Program} {trail : List Pending}
  {m : Machine}

/-- Whether it takes a step or is given an answer, a machine stands where the trail says. -/
theorem Stands.advance
    (stands : m.Stands program trail)
    {outside : Prop}
    {origin : ScopeRef}
    (contained : m.Contained outside origin)
    (state : State) :
    (m.advance host state).1.Stands program (m.trailAfter trail) := by
  unfold Machine.advance
  cases asks : m.request? with
  | none => exact stands.step contained asks
  | some request =>
    obtain ⟨control, scope, stack, store⟩ := m
    cases control with
    | await asked position =>
      obtain ⟨place, callee, arguments, outer, rfl, rfl, covers, rests⟩ := stands
      simp only
      cases (host.reply request store state).1 with
      | ok value => exact rests
      | error message => trivial
    | _ => cases asks

/-- At every moment of the run of a program, the machine is in the middle of the operations that are
in progress. -/
theorem Moment.stands
    {scope : ScopeRef}
    {store : Store}
    {start state : State}
    (moment : Moment host (ofProgram program scope store) start trail m state) :
    m.Stands program trail := by
  induction moment with
  | start => exact ⟨fun _ mem => Node.Covers.self.stmt (.statement mem), .nil⟩
  | next moment _ ih =>
    exact ih.advance (moment.contained (contained_ofProgram_outside program scope store)) _

/-! ## Failures -/

/-- The operation of an expression fails in the next step: its operands have values, or it has none,
and it is not possible with these. -/
inductive Breaks (host : Host State) (m : Machine) (state : State) : Expr → Fault.Cause → Prop
  | binary {position op left right first second rest cause} :
      m.control = .give second → m.stack = .binary position op first :: rest →
      m.store.binary op first second = .error cause →
      Breaks host m state (.binary position op left right) cause
  | unary {position op operand value rest cause} :
      m.control = .give value → m.stack = .unary position op :: rest →
      m.store.unary op value = .error cause →
      Breaks host m state (.unary position op operand) cause
  /-- A change by one is made of what is no variable. -/
  | stepTarget {position side op operand} :
      m.control = .evaluate (.step position side op operand) →
      (∀ place name, operand ≠ .name place name) →
      Breaks host m state (.step position side op operand) (.stepTarget op)
  /-- A change by one is made of a variable that holds no number. -/
  | stepValue {position side op place name} :
      m.control = .evaluate (.step position side op (.name place name)) →
      (m.store.lookup m.scope name).number? = none →
      Breaks host m state (.step position side op (.name place name)) (.stepValue op name)
  /-- A value is assigned to what is neither a name nor a member. -/
  | assignTarget {position target value} :
      m.control = .evaluate (.assign position target value) →
      (∀ place name, target ≠ .name place name) →
      (∀ place subject key, target ≠ .member place subject key) →
      (∀ place subject key, target ≠ .index place subject key) →
      Breaks host m state (.assign position target value) .assignmentTarget
  /-- A value is assigned to a member that cannot be written. -/
  | assignPlace {position target value subject key assigned rest cause} :
      m.control = .give assigned → m.stack = .assignValue position subject key :: rest →
      m.store.place subject key = .error cause →
      Breaks host m state (.assign position target value) cause
  /-- A member is asked for by what is no key. -/
  | key {position subject key owner value rest cause} :
      m.control = .give value → m.stack = .key position owner :: rest →
      m.store.member owner value = .error cause →
      Breaks host m state (.index position subject key) cause
  | callNative {position callee arguments native values cause} :
      m.control = .apply (.native native) values (some position) →
      native.perform values m.scope m.store = .error cause →
      Breaks host m state (.call position callee arguments) cause
  | callMethod {position callee arguments receiver method values cause} :
      m.control = .apply (.method receiver method) values (some position) →
      Method.perform method receiver values m.store = .error cause →
      Breaks host m state (.call position callee arguments) cause
  /-- What is called is no function. -/
  | callOther {position callee arguments value values} :
      m.control = .apply value values (some position) →
      value.typeTag ≠ .function → value.typeTag ≠ .native →
      Breaks host m state (.call position callee arguments) (.notCallable value.typeTag)
  /-- The surrounding program answers a call by a fault. -/
  | callHost {position callee arguments request message} :
      m.control = .await request (some position) →
      (host.reply request m.store state).1 = .error message →
      Breaks host m state (.call position callee arguments) (.host message)

/-- An operation is the innermost one at hand: it begins, or it is the latest one in progress.  The
others in progress are around it. -/
inductive Innermost (m : Machine) (trail : List Pending) : Expr → List Pending → Prop
  | begins {expr} : m.control = .evaluate expr → Innermost m trail expr trail
  | latest {expr outer} : trail = .of expr :: outer → Innermost m trail expr outer

/-- The operations around the innermost one are in progress as well. -/
theorem Innermost.mem_trail
    {expr : Expr}
    {outer : List Pending}
    (innermost : m.Innermost trail expr outer)
    {pending : Pending}
    (mem : pending ∈ outer) :
    pending ∈ trail := by
  cases innermost with
  | begins atHand => exact mem
  | latest isLatest =>
    rw [isLatest]
    exact List.mem_cons_of_mem (.of expr) mem

/-- A fault that the next step meets is that of the innermost operation at hand, and is placed at
its node. -/
def Located (host : Host State) (m : Machine) (state : State) (program : Program)
    (trail : List Pending) (fault : Fault) : Prop :=
  ∃ expr outer, m.Innermost trail expr outer ∧ m.Breaks host state expr fault.cause ∧
    Pending.Nested program (.of expr :: outer) ∧ fault.position = some expr.position

/-- The operations of a stack are nested in one another. -/
theorem StackIn.nested
    {stack : List Frame}
    (stackIn : StackIn program trail stack) :
    Pending.Nested program trail := by
  induction stackIn with
  | nil => trivial
  | frame _ _ ih => exact ih
  | stage _ covers _ ih => exact ⟨covers, ih⟩
  | parameter _ covers _ ih => exact ⟨covers, ih⟩
  | call covers _ ih => exact ⟨covers, ih⟩

section Failures

variable {state : State} {fault : Fault}

/-- A machine that fails on a result has the cause and the position of the fault from it. -/
theorem exists_error_of_giveOrFail
    {position : Position}
    {result : Except Fault.Cause Value}
    (failed : (m.giveOrFail position result).control = .failed fault) :
    result = .error fault.cause ∧ fault.position = some position := by
  cases result with
  | ok value => cases failed
  | error cause =>
    cases failed
    exact ⟨rfl, rfl⟩

/-- A machine that fails on an action has the cause and the position of the fault from it. -/
theorem exists_error_of_actOrFail
    {position : Option Position}
    {result : Except Fault.Cause Action}
    (failed : (m.actOrFail position result).control = .failed fault) :
    result = .error fault.cause ∧ fault.position = position := by
  cases result with
  | ok action => cases action <;> cases failed
  | error cause =>
    cases failed
    exact ⟨rfl, rfl⟩

/-- A fault met at the beginning of an expression is one of that expression. -/
theorem located_evaluate
    {expr : Expr}
    (atHand : m.control = .evaluate expr)
    (nested : Pending.Nested program (.of expr :: trail))
    (failed : (m.evaluate expr).control = .failed fault) :
    m.Located host state program trail fault := by
  cases expr with
  | array position items => cases items <;> cases failed
  | object position fields =>
    match fields with
    | [] => cases failed
    | .mk key value :: rest => cases failed
  | step position side op operand =>
    cases operand with
    | name place name =>
      simp only [evaluate, stepName] at failed
      split at failed
      · cases failed
      · next noNumber =>
        cases failed
        refine ⟨_, trail, .begins atHand, .stepValue atHand ?_, nested, rfl⟩
        cases old : m.store.lookup m.scope name with
        | number number => exact absurd old (noNumber number)
        | _ => rfl
    | _ =>
      cases failed
      exact ⟨_, trail, .begins atHand, .stepTarget atHand (by simp), nested, rfl⟩
  | assign position target value =>
    cases target with
    | name place name => cases failed
    | member place subject key => cases failed
    | index place subject key => cases failed
    | _ =>
      cases failed
      exact ⟨_, trail, .begins atHand, .assignTarget atHand (by simp) (by simp) (by simp), nested,
        rfl⟩
  | function position name exported parameters body => cases name <;> cases failed
  | _ => cases failed

/-- No statement fails by itself. -/
theorem control_execute_ne_failed
    (statement : Stmt) :
    (m.execute statement).control ≠ .failed fault := by
  intro failed
  cases statement with
  | debug position values => cases values <;> cases failed
  | _ => cases failed

/-- A fault met in a call of a function of the library is one of the call in progress. -/
theorem located_apply
    {callee : Value}
    {values : List Value}
    {position : Option Position}
    (atHand : m.control = .apply callee values position)
    (called : CallIn program trail position m.stack)
    (failed : (m.apply callee values position).control = .failed fault) :
    m.Located host state program trail fault := by
  obtain ⟨place, calleeExpr, arguments, outer, rfl, rfl, covers, rests⟩ := called
  have nested : Pending.Nested program (.of (.call place calleeExpr arguments) :: outer) :=
    ⟨covers, rests.nested⟩
  cases callee with
  | function function captured => cases failed
  | native native =>
    obtain ⟨error, isPlace⟩ := exists_error_of_actOrFail failed
    exact ⟨_, outer, .latest rfl, .callNative atHand error, nested, isPlace⟩
  | method receiver method =>
    obtain ⟨error, isPlace⟩ := exists_error_of_actOrFail failed
    exact ⟨_, outer, .latest rfl, .callMethod atHand error, nested, isPlace⟩
  | _ =>
    cases failed
    exact ⟨_, outer, .latest rfl,
      .callOther atHand (by simp [Value.typeTag]) (by simp [Value.typeTag]), nested, rfl⟩

/-- A member that is written by its name can be asked for. -/
theorem member_string_ne_error
    (store : Store)
    (subject : Value)
    (key : String)
    (cause : Fault.Cause) :
    store.member subject (.string key) ≠ .error cause := by
  intro error
  simp only [Store.member, Store.keyText, bind, Except.bind] at error
  split at error
  · cases error
  · split at error <;> cases error

/-- A frame that is no stage of an operation does not fail. -/
theorem control_resume_ne_failed
    (value : Value)
    {code : Node}
    {frame : Frame}
    (ofFrame : FrameIn code frame) :
    (m.resume value frame).control ≠ .failed fault := by
  intro failed
  cases frame with
  | items done rest => cases rest <;> cases failed
  | fields done key rest =>
    match rest with
    | [] => cases failed
    | .mk key value :: rest => cases failed
  | logical op operand =>
    simp only [resume] at failed
    split at failed <;> cases failed
  | whileTest test body last =>
    simp only [resume] at failed
    split at failed <;> cases failed
  | forTest loop last =>
    simp only [resume] at failed
    split at failed <;> cases failed
  | debug done rest => cases rest <;> cases failed
  | sequence rest => cases rest <;> cases failed
  | binary | unary | assignValue | member | key | callee | arguments => exact ofFrame
  | _ => cases failed

/-- A fault met when an operation has its operands is one of that operation. -/
theorem located_resume
    {value : Value}
    {frame : Frame}
    {rest : List Frame}
    (atHand : m.control = .give value)
    (top : m.stack = frame :: rest)
    (stackIn : StackIn program trail (frame :: rest))
    (failed : (({ m with stack := rest } : Machine).resume value frame).control = .failed fault) :
    m.Located host state program trail fault := by
  have nested := stackIn.nested
  cases stackIn with
  | frame ofFrame _ => exact absurd failed (control_resume_ne_failed value ofFrame)
  | parameter => cases failed
  | call => cases failed
  | stage isStage covers below =>
    cases isStage with
    | binary =>
      obtain ⟨error, place⟩ := exists_error_of_giveOrFail failed
      exact ⟨_, _, .latest rfl, .binary atHand top error, nested, place⟩
    | unary =>
      obtain ⟨error, place⟩ := exists_error_of_giveOrFail failed
      exact ⟨_, _, .latest rfl, .unary atHand top error, nested, place⟩
    | assignValue =>
      simp only [resume] at failed
      split at failed
      · cases failed
      · next cause error =>
        cases failed
        exact ⟨_, _, .latest rfl, .assignPlace atHand top error, nested, rfl⟩
    | @callee position callee arguments => cases arguments <;> cases failed
    | @arguments position callee arguments value done rest among => cases rest <;> cases failed
    | member =>
      obtain ⟨error, place⟩ := exists_error_of_giveOrFail failed
      exact absurd error (member_string_ne_error _ _ _ _)
    | key =>
      obtain ⟨error, place⟩ := exists_error_of_giveOrFail failed
      exact ⟨_, _, .latest rfl, .key atHand top error, nested, place⟩
    | _ => cases failed

/-- Nothing else fails than the innermost operation at hand. -/
theorem Stands.located
    (stands : m.Stands program trail)
    (going : m.outcome? = none)
    (failed : (m.advance host state).1.control = .failed fault) :
    m.Located host state program trail fault := by
  obtain ⟨control, scope, stack, store⟩ := m
  cases control with
  | evaluate expr => exact located_evaluate rfl ⟨stands.1, stands.2.nested⟩ failed
  | execute statement => exact absurd failed (control_execute_ne_failed statement)
  | run body => cases body <;> cases failed
  | give value =>
    cases stack with
    | nil => cases failed
    | cons frame rest => exact located_resume rfl rfl stands failed
  | unwind value =>
    cases stack with
    | nil => cases failed
    | cons frame rest => cases frame <;> cases failed
  | apply callee values position => exact located_apply rfl stands failed
  | bind call remaining =>
    match remaining with
    | [] => cases failed
    | .required name :: rest => cases failed
    | .optional name default :: rest => cases failed
  | await request position =>
    obtain ⟨place, callee, arguments, outer, rfl, rfl, covers, rests⟩ := stands
    simp only [Machine.advance, request?] at failed
    cases reply : (host.reply request store state).1 with
    | ok value => simp [reply, answer, give] at failed
    | error message =>
      simp only [reply, answer, fail, Control.failed.injEq] at failed
      subst failed
      exact ⟨_, outer, .latest rfl, .callHost rfl reply, ⟨covers, rests.nested⟩, rfl⟩
  | failed other => cases going
  | exited status => cases going

/-- An error becomes a fault at the given position. -/
theorem control_giveOrFail_of_error
    {position : Position}
    {result : Except Fault.Cause Value}
    {cause : Fault.Cause}
    (error : result = .error cause) :
    (m.giveOrFail position result).control =
      .failed { cause := cause, position := some position } := by
  rw [error]
  rfl

/-- An error of a function of the library becomes a fault at the position of the call, if it has
one. -/
theorem control_actOrFail_of_error
    {position : Option Position}
    {result : Except Fault.Cause Action}
    {cause : Fault.Cause}
    (error : result = .error cause) :
    (m.actOrFail position result).control = .failed { cause := cause, position := position } := by
  rw [error]
  rfl

/-- A run is not over where an operation fails. -/
theorem Breaks.outcome?_eq_none
    {expr : Expr}
    {cause : Fault.Cause}
    (breaks : m.Breaks host state expr cause) :
    m.outcome? = none := by
  cases breaks <;> simp [outcome?, *]

/-- An operation that fails ends the run with a fault at its node. -/
theorem Breaks.advance
    {expr : Expr}
    {cause : Fault.Cause}
    (breaks : m.Breaks host state expr cause) :
    (m.advance host state).1.control =
      .failed { cause := cause, position := some expr.position } := by
  obtain ⟨control, scope, stack, store⟩ := m
  cases breaks with
  | binary atHand top error =>
    cases atHand
    cases top
    exact control_giveOrFail_of_error error
  | unary atHand top error =>
    cases atHand
    cases top
    exact control_giveOrFail_of_error error
  | @stepTarget position side op operand atHand noName =>
    cases atHand
    cases operand with
    | name place name => exact absurd rfl (noName place name)
    | _ => rfl
  | @stepValue position side op place name atHand noNumber =>
    cases atHand
    simp only at noNumber
    simp only [Machine.advance, request?, step, evaluate, stepName]
    split
    · next number isNumber => simp [isNumber, Value.number?] at noNumber
    · rfl
  | @assignTarget position target value atHand noName noMember noIndex =>
    cases atHand
    cases target with
    | name place name => exact absurd rfl (noName place name)
    | member place subject key => exact absurd rfl (noMember place subject key)
    | index place subject key => exact absurd rfl (noIndex place subject key)
    | _ => rfl
  | assignPlace atHand top error =>
    cases atHand
    cases top
    simp only at error
    simp only [Machine.advance, request?, step, resume, error]
    rfl
  | key atHand top error =>
    cases atHand
    cases top
    exact control_giveOrFail_of_error error
  | callNative atHand error =>
    cases atHand
    exact control_actOrFail_of_error error
  | callMethod atHand error =>
    cases atHand
    exact control_actOrFail_of_error error
  | @callOther position callee arguments value values atHand noFunction noNative =>
    cases atHand
    cases value with
    | function function captured => exact absurd rfl noFunction
    | native native => exact absurd rfl noNative
    | method receiver method => exact absurd rfl noNative
    | _ => rfl
  | callHost atHand error =>
    cases atHand
    simp only at error
    simp only [Machine.advance, request?, error]
    rfl

end Failures

end Machine
end TinyScript
