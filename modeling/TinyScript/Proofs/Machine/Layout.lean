import TinyScript.Proofs.Machine.Natives
import TinyScript.Proofs.Machine.Returns
import TinyScript.Proofs.Machine.Scopes
import TinyScript.Proofs.Syntax.Everywhere

/-!
# Which code runs where

Whatever a machine runs is a part of code that it was given, or of the code of a function
that it has met, and it runs it in the scope that it was written for or in one that was
made inside of that.  A layout says which code may be run in which scope; a run keeps to
every layout that its beginning keeps to.
-/

namespace TinyScript

/-- A choice of the nodes that may be run in each scope of a region.  With a node, its parts may be
run: in the same scope, or in a new one inside of that. -/
structure Layout where
  region : Region
  Runs : Store → ScopeRef → Node → Prop
  within : ∀ {store scope node}, Runs store scope node → region.scopes scope
  grows : ∀ {store later scope node},
    later.Extends store → Runs store scope node → Runs later scope node
  part : ∀ {store scope whole part},
    Runs store scope whole → Node.Part whole part → Runs store scope part
  inside : ∀ {store scope whole part},
    Runs store scope whole → Node.Inside whole part →
      Runs (store.newChild scope).2 (store.newChild scope).1 part

namespace Layout

variable (layout : Layout)

/-- Every one of some statements may be run. -/
def RunsAll (store : Store) (scope : ScopeRef) (statements : List Stmt) : Prop :=
  ∀ statement ∈ statements, layout.Runs store scope (.stmt statement)

/-- Every one of some expressions may be run. -/
def RunsEach (store : Store) (scope : ScopeRef) (exprs : List Expr) : Prop :=
  ∀ expr ∈ exprs, layout.Runs store scope (.expr expr)

/-- A function was written for the scope that it was made in, and an array or object is one of the
region. -/
def OfValue (store : Store) : Value → Prop
  | .function function captured => layout.Runs store captured (.function function)
  | .method receiver _ => OfValue store receiver
  | .array ref => layout.region.arrays ref
  | .object ref => layout.region.objects ref
  | _ => True

/-- The test, the update and the body of a loop may be run in its scope. -/
structure OfLoop (store : Store) (scope : ScopeRef) (loop : Loop) : Prop where
  test : layout.Runs store scope (.expr loop.test)
  update : layout.Runs store scope (.expr loop.update)
  body : layout.RunsAll store scope loop.body

/-- The defaults of the remaining parameters of a call and the body of its function may be run. -/
structure OfCall (store : Store) (call : Activation) (parameters : List Parameter) : Prop where
  body : layout.Runs store call.scope (.body call.body)
  defaults : ∀ name default, Parameter.optional name default ∈ parameters →
    layout.Runs store call.captured (.expr default)

/-- Whatever a frame keeps may be run in a scope. -/
def OfFrame (store : Store) (scope : ScopeRef) : Frame → Prop
  | .items _ rest => layout.RunsEach store scope rest
  | .fields _ _ rest => ∀ key value, Field.mk key value ∈ rest →
    layout.Runs store scope (.expr value)
  | .right _ _ operand => layout.Runs store scope (.expr operand)
  | .logical _ operand => layout.Runs store scope (.expr operand)
  | .assignName name => ∃ position namePosition value,
    layout.Runs store scope (.expr (.assign position (.name namePosition name) value))
  | .assignMember _ _ value => layout.Runs store scope (.expr value)
  | .assignIndex _ key value =>
    layout.Runs store scope (.expr key) ∧ layout.Runs store scope (.expr value)
  | .assignKey _ _ value => layout.Runs store scope (.expr value)
  | .declare flavour name => ∃ position value,
    layout.Runs store scope (.expr (.declare position flavour name value))
  | .callee _ arguments => layout.RunsEach store scope arguments
  | .arguments _ _ _ rest => layout.RunsEach store scope rest
  | .index _ key => layout.Runs store scope (.expr key)
  | .ternary consequent alternate =>
    layout.Runs store scope (.expr consequent) ∧ layout.Runs store scope (.expr alternate)
  | .branch consequent alternate =>
    layout.RunsAll store scope consequent ∧ layout.RunsAll store scope alternate
  | .whileTest test body _ =>
    layout.Runs store scope (.expr test) ∧ layout.RunsAll store scope body
  | .whileBody test body =>
    layout.Runs store scope (.expr test) ∧ layout.RunsAll store scope body
  | .forStart loop => layout.OfLoop store scope loop
  | .forTest loop _ => layout.OfLoop store scope loop
  | .forBody loop => layout.OfLoop store scope loop
  | .forUpdate loop _ => layout.OfLoop store scope loop
  | .debug _ rest => layout.RunsEach store scope rest
  | .sequence rest => layout.RunsAll store scope rest
  | .parameter call _ rest => layout.OfCall store call rest
  | _ => True

/-- Whatever the frames of a stack keep may be run in the scopes that they go on in, the first one
in a scope. -/
def OfStack (store : Store) : ScopeRef → List Frame → Prop
  | _, [] => True
  | scope, frame :: rest =>
    layout.OfFrame store scope frame ∧ OfStack store (Machine.scopeBelow scope frame) rest

/-- What a machine does may be run in a scope. -/
def OfControl (store : Store) (scope : ScopeRef) : Control → Prop
  | .evaluate expr => layout.Runs store scope (.expr expr)
  | .execute statement => layout.Runs store scope (.stmt statement)
  | .run body => layout.RunsAll store scope body
  | .bind call parameters => layout.OfCall store call parameters
  | _ => True

end Layout

/-- The scope that the first frame of a machine goes on in. -/
def Machine.floor (m : Machine) : ScopeRef :=
  match m.control with
  | .bind call _ => call.caller
  | _ => m.scope

namespace Layout

variable (layout : Layout)

/-- The code of a machine keeps to a layout of a store. -/
structure OfCode (store : Store) (m : Machine) : Prop where
  control : layout.OfControl store m.scope m.control
  stack : layout.OfStack store m.floor m.stack

/-- A machine keeps to a layout: its code does, and the values that it can come to do. -/
structure Holds (m : Machine) : Prop where
  code : layout.OfCode m.store m
  values : m.AllIn layout.region (layout.OfValue m.store)

variable {layout : Layout}

/-! ## Growth -/

section Growth

variable {store later : Store} (grown : later.Extends store)

include grown

/-- A value stays in a layout while its store grows. -/
theorem OfValue.grows
    {value : Value}
    (ofValue : layout.OfValue store value) :
    layout.OfValue later value := by
  induction value with
  | function function captured => exact layout.grows grown ofValue
  | method receiver method ih => exact ih ofValue
  | _ => exact ofValue

theorem OfLoop.grows
    {scope : ScopeRef}
    {loop : Loop}
    (ofLoop : layout.OfLoop store scope loop) :
    layout.OfLoop later scope loop where
  test := layout.grows grown ofLoop.test
  update := layout.grows grown ofLoop.update
  body statement mem := layout.grows grown (ofLoop.body statement mem)

theorem OfCall.grows
    {call : Activation}
    {parameters : List Parameter}
    (ofCall : layout.OfCall store call parameters) :
    layout.OfCall later call parameters where
  body := layout.grows grown ofCall.body
  defaults name default mem := layout.grows grown (ofCall.defaults name default mem)

theorem OfFrame.grows
    {scope : ScopeRef}
    {frame : Frame}
    (ofFrame : layout.OfFrame store scope frame) :
    layout.OfFrame later scope frame := by
  have one : ∀ {node : Node}, layout.Runs store scope node → layout.Runs later scope node :=
    layout.grows grown
  have each : ∀ {exprs : List Expr},
      layout.RunsEach store scope exprs → layout.RunsEach later scope exprs :=
    fun runs expr mem => one (runs expr mem)
  have all : ∀ {statements : List Stmt},
      layout.RunsAll store scope statements → layout.RunsAll later scope statements :=
    fun runs statement mem => one (runs statement mem)
  cases frame with
  | items done rest => exact each ofFrame
  | fields done key rest => exact fun key value mem => one (ofFrame key value mem)
  | right position op operand => exact one ofFrame
  | logical op operand => exact one ofFrame
  | assignName name =>
    obtain ⟨position, namePosition, value, runs⟩ := ofFrame
    exact ⟨position, namePosition, value, one runs⟩
  | assignMember position key value => exact one ofFrame
  | assignIndex position key value => exact ⟨one ofFrame.1, one ofFrame.2⟩
  | assignKey position subject value => exact one ofFrame
  | declare flavour name =>
    obtain ⟨position, value, runs⟩ := ofFrame
    exact ⟨position, value, one runs⟩
  | callee position arguments => exact each ofFrame
  | arguments position callee done rest => exact each ofFrame
  | index position key => exact one ofFrame
  | ternary consequent alternate => exact ⟨one ofFrame.1, one ofFrame.2⟩
  | branch consequent alternate => exact ⟨all ofFrame.1, all ofFrame.2⟩
  | whileTest test body last => exact ⟨one ofFrame.1, all ofFrame.2⟩
  | whileBody test body => exact ⟨one ofFrame.1, all ofFrame.2⟩
  | forStart loop => exact OfLoop.grows grown ofFrame
  | forTest loop last => exact OfLoop.grows grown ofFrame
  | forBody loop => exact OfLoop.grows grown ofFrame
  | forUpdate loop last => exact OfLoop.grows grown ofFrame
  | debug done rest => exact each ofFrame
  | sequence rest => exact all ofFrame
  | parameter call name rest => exact OfCall.grows grown ofFrame
  | _ => trivial

theorem OfStack.grows
    {scope : ScopeRef}
    {stack : List Frame}
    (ofStack : layout.OfStack store scope stack) :
    layout.OfStack later scope stack := by
  induction stack generalizing scope with
  | nil => trivial
  | cons frame rest ih => exact ⟨OfFrame.grows grown ofStack.1, ih ofStack.2⟩

/-- Whatever is at hand stays in a layout while its store grows. -/
theorem OfControl.grows
    {scope : ScopeRef}
    {control : Control}
    (ofControl : layout.OfControl store scope control) :
    layout.OfControl later scope control := by
  cases control with
  | evaluate expr => exact layout.grows grown ofControl
  | execute statement => exact layout.grows grown ofControl
  | run body => exact fun statement mem => layout.grows grown (ofControl statement mem)
  | bind call parameters => exact OfCall.grows grown ofControl
  | _ => trivial

/-- The code of a machine stays in a layout while its store grows. -/
theorem OfCode.grows
    {m : Machine}
    (ofCode : layout.OfCode store m) :
    layout.OfCode later m :=
  ⟨OfControl.grows grown ofCode.control, OfStack.grows grown ofCode.stack⟩

end Growth

/-! ## Steps -/

section Steps

variable {m : Machine} {store : Store}

theorem ofCode_giveOrFail
    (rests : layout.OfStack store m.scope m.stack)
    (position : Position)
    (result : Except Fault.Cause Value) :
    layout.OfCode store (m.giveOrFail position result) := by
  cases result <;> exact ⟨trivial, rests⟩

/-- The next item of an array is run in the scope of the array. -/
theorem ofCode_evaluateItems
    (rests : layout.OfStack store m.scope m.stack)
    (done : List Value)
    {items : List Expr}
    (runs : layout.RunsEach store m.scope items) :
    layout.OfCode store (m.evaluateItems done items) := by
  cases items with
  | nil => exact ⟨trivial, rests⟩
  | cons item items =>
    obtain ⟨first, others⟩ := List.forall_mem_cons.1 runs
    exact ⟨first, others, rests⟩

/-- The next property of an object is run in the scope of the object. -/
theorem ofCode_evaluateFields
    (rests : layout.OfStack store m.scope m.stack)
    (done : Table Value)
    {fields : List Field}
    (runs : ∀ key value, Field.mk key value ∈ fields →
      layout.Runs store m.scope (.expr value)) :
    layout.OfCode store (m.evaluateFields done fields) := by
  match fields with
  | [] => exact ⟨trivial, rests⟩
  | .mk key value :: fields =>
    exact ⟨runs key value List.mem_cons_self,
      fun key value mem => runs key value (List.mem_cons_of_mem _ mem), rests⟩

/-- The next argument of a call is run in the scope of the call. -/
theorem ofCode_evaluateArguments
    (rests : layout.OfStack store m.scope m.stack)
    (position : Position)
    (callee : Value)
    (done : List Value)
    {arguments : List Expr}
    (runs : layout.RunsEach store m.scope arguments) :
    layout.OfCode store (m.evaluateArguments position callee done arguments) := by
  cases arguments with
  | nil => exact ⟨trivial, rests⟩
  | cons argument arguments =>
    obtain ⟨first, others⟩ := List.forall_mem_cons.1 runs
    exact ⟨first, others, rests⟩

/-- The next value of a `debug` statement is run in the scope of the statement. -/
theorem ofCode_evaluateShown
    (rests : layout.OfStack store m.scope m.stack)
    (done : List String)
    {values : List Expr}
    (runs : layout.RunsEach store m.scope values) :
    layout.OfCode store (m.evaluateShown done values) := by
  cases values with
  | nil => exact ⟨trivial, rests⟩
  | cons value values =>
    obtain ⟨first, others⟩ := List.forall_mem_cons.1 runs
    exact ⟨first, others, rests⟩

/-- The next statement of a body is run in the scope of the body. -/
theorem ofCode_runBody
    (rests : layout.OfStack store m.scope m.stack)
    {body : List Stmt}
    (runs : layout.RunsAll store m.scope body) :
    layout.OfCode store (m.runBody body) := by
  cases body with
  | nil => exact ⟨trivial, rests⟩
  | cons statement rest =>
    obtain ⟨first, others⟩ := List.forall_mem_cons.1 runs
    exact ⟨first, others, rests⟩

/-- The parts of an expression are run in its own scope. -/
theorem ofCode_evaluate
    (rests : layout.OfStack store m.scope m.stack)
    {expr : Expr}
    (runs : layout.Runs store m.scope (.expr expr)) :
    layout.OfCode store (m.evaluate expr) := by
  cases expr with
  | array position items =>
    exact ofCode_evaluateItems rests [] fun item mem => layout.part runs (.item mem)
  | object position fields =>
    exact ofCode_evaluateFields rests .empty fun key value mem => layout.part runs (.property mem)
  | binary position op left right =>
    exact ⟨layout.part runs .binaryLeft, layout.part runs .binaryRight, rests⟩
  | logical position op left right =>
    exact ⟨layout.part runs .logicalLeft, layout.part runs .logicalRight, rests⟩
  | unary position op operand => exact ⟨layout.part runs .unary, trivial, rests⟩
  | step position side op operand =>
    cases operand with
    | name namePosition name =>
      simp only [Machine.evaluate, Machine.stepName]
      split <;> exact ⟨trivial, rests⟩
    | _ => exact ⟨trivial, rests⟩
  | assign position target value =>
    have ofValue := layout.part runs .assigned
    have ofTarget := layout.part runs .target
    cases target with
    | name namePosition name => exact ⟨ofValue, ⟨position, namePosition, value, runs⟩, rests⟩
    | member subjectPosition subject key =>
      exact ⟨layout.part ofTarget .member, ofValue, rests⟩
    | index subjectPosition subject key =>
      exact ⟨layout.part ofTarget .indexed, ⟨layout.part ofTarget .key, ofValue⟩, rests⟩
    | _ => exact ⟨trivial, rests⟩
  | declare position flavour name value =>
    exact ⟨layout.part runs .declared, ⟨position, value, runs⟩, rests⟩
  | call position callee arguments =>
    exact ⟨layout.part runs .callee, fun argument mem => layout.part runs (.argument mem), rests⟩
  | member position subject key => exact ⟨layout.part runs .member, trivial, rests⟩
  | index position subject key =>
    exact ⟨layout.part runs .indexed, layout.part runs .key, rests⟩
  | ternary position test consequent alternate =>
    exact ⟨layout.part runs .test,
      ⟨layout.part runs .consequent, layout.part runs .alternate⟩, rests⟩
  | typeof position operand => exact ⟨layout.part runs .typeof, trivial, rests⟩
  | function position name exported parameters body =>
    cases name <;> exact ⟨trivial, rests⟩
  | _ => exact ⟨trivial, rests⟩

/-- The loop of a `for` statement runs in the scope that is made for it. -/
theorem ofLoop_newChild
    {scope : ScopeRef}
    {position : Position}
    {start test update : Expr}
    {body : List Stmt}
    (runs : layout.Runs store scope (.stmt (.forLoop position start test update body))) :
    layout.OfLoop (store.newChild scope).2 (store.newChild scope).1
      { outer := scope, test := test, update := update, body := body } where
  test := layout.inside runs .test
  update := layout.inside runs .update
  body _ mem := layout.inside runs (.statement mem)

/-- The parts of a statement are run in its own scope, and those of a `for` statement in a new one
inside it. -/
theorem ofCode_execute
    (rests : layout.OfStack m.store m.scope m.stack)
    {statement : Stmt}
    (runs : layout.Runs m.store m.scope (.stmt statement)) :
    layout.OfCode (m.execute statement).store (m.execute statement) := by
  cases statement with
  | expr position value => exact ⟨layout.part runs .value, rests⟩
  | branch position test consequent alternate =>
    exact ⟨layout.part runs .branchTest,
      ⟨fun statement mem => layout.part runs (.branchThen mem),
        fun statement mem => layout.part runs (.branchElse mem)⟩, rests⟩
  | whileLoop position test body =>
    exact ⟨layout.part runs .whileTest,
      ⟨layout.part runs .whileTest, fun statement mem => layout.part runs (.whileBody mem)⟩, rests⟩
  | forLoop position start test update body =>
    exact ⟨layout.inside runs .start, ofLoop_newChild runs,
      OfStack.grows (m.store.extends_newChild m.scope) rests⟩
  | returnValue position value => exact ⟨layout.part runs .returned, trivial, rests⟩
  | returnNothing position => exact ⟨trivial, rests⟩
  | debug position values =>
    refine OfCode.grows (Store.extends_of_scopes_eq (m.scopes_evaluateShown [] values)) ?_
    exact ofCode_evaluateShown rests [] fun value mem => layout.part runs (.shown mem)
  | use position path => exact ⟨trivial, rests⟩

/-- A function of the library brings no code with it. -/
theorem ofCode_actOrFail
    (rests : layout.OfStack store m.scope m.stack)
    (position : Option Position)
    (result : Except Fault.Cause Action) :
    layout.OfCode store (m.actOrFail position result) := by
  cases result with
  | ok action => cases action <;> exact ⟨trivial, rests⟩
  | error cause => exact ⟨trivial, rests⟩

/-- The body of a called function runs in the scope that is made for the call, and the defaults of
its parameters in the one that it was made in. -/
theorem ofCode_activate
    (rests : layout.OfStack m.store m.scope m.stack)
    {function : Function}
    {captured : ScopeRef}
    (ofFunction : layout.OfValue m.store (.function function captured))
    (arguments : List Value) :
    layout.OfCode (m.activate function captured arguments).store
      (m.activate function captured arguments) := by
  have opened := m.store.extends_newChild captured
  have bound := Store.extends_bindArguments (m.store.newChild captured).2
    (m.store.newChild captured).1 function.parameters arguments
  refine ⟨⟨layout.grows bound (layout.inside ofFunction .body), fun name default mem => ?_⟩,
    OfStack.grows (bound.trans opened) rests⟩
  exact layout.grows (bound.trans opened)
    (layout.part ofFunction (.default (List.mem_of_mem_drop mem)))

/-- A call runs the body of the function in a new scope inside the one that the function was made
in. -/
theorem ofCode_apply
    (rests : layout.OfStack m.store m.scope m.stack)
    {callee : Value}
    (ofCallee : layout.OfValue m.store callee)
    (arguments : List Value)
    (position : Option Position) :
    layout.OfCode (m.apply callee arguments position).store
      (m.apply callee arguments position) := by
  cases callee with
  | function function captured => exact ofCode_activate rests ofCallee arguments
  | native native =>
    exact OfCode.grows (Store.extends_of_scopes_eq (m.scopes_actOrFail position _))
      (ofCode_actOrFail rests position _)
  | method receiver method =>
    exact OfCode.grows (Store.extends_of_scopes_eq (m.scopes_actOrFail position _))
      (ofCode_actOrFail rests position _)
  | _ => exact ⟨trivial, rests⟩

/-- A default is run in the scope that the function was made in. -/
theorem ofCode_bindParameters
    {call : Activation}
    (rests : layout.OfStack store call.caller m.stack)
    {parameters : List Parameter}
    (ofCall : layout.OfCall store call parameters) :
    layout.OfCode store (m.bindParameters call parameters) := by
  match parameters with
  | [] =>
    exact ⟨fun statement mem => layout.part ofCall.body (.statement mem), trivial, rests⟩
  | .required name :: rest =>
    exact ⟨⟨ofCall.body, fun name default mem =>
      ofCall.defaults name default (List.mem_cons_of_mem _ mem)⟩, rests⟩
  | .optional name default :: rest =>
    exact ⟨ofCall.defaults name default List.mem_cons_self, ⟨ofCall.body, fun name default mem =>
      ofCall.defaults name default (List.mem_cons_of_mem _ mem)⟩, rests⟩

/-- Whatever a frame goes on with is run in the scope that the frame belongs to. -/
theorem ofCode_resume
    (value : Value)
    {frame : Frame}
    (ofFrame : layout.OfFrame store m.scope frame)
    (rests : layout.OfStack store (Machine.scopeBelow m.scope frame) m.stack) :
    layout.OfCode store (m.resume value frame) := by
  cases frame with
  | items done rest => exact ofCode_evaluateItems rests _ ofFrame
  | fields done key rest => exact ofCode_evaluateFields rests _ ofFrame
  | right position op operand => exact ⟨ofFrame, trivial, rests⟩
  | binary position op left => exact ofCode_giveOrFail rests position _
  | logical op operand =>
    simp only [Machine.resume]
    split
    · exact ⟨trivial, rests⟩
    · exact ⟨ofFrame, rests⟩
  | unary position op => exact ofCode_giveOrFail rests position _
  | assignMember position key expr => exact ⟨ofFrame, trivial, rests⟩
  | assignIndex position key expr => exact ⟨ofFrame.1, ofFrame.2, rests⟩
  | assignKey position subject expr => exact ⟨ofFrame, trivial, rests⟩
  | assignValue position subject key =>
    simp only [Machine.resume]
    split <;> exact ⟨trivial, rests⟩
  | callee position arguments => exact ofCode_evaluateArguments rests position value [] ofFrame
  | arguments position callee done rest =>
    exact ofCode_evaluateArguments rests position callee _ ofFrame
  | member position key => exact ofCode_giveOrFail rests position _
  | index position key => exact ⟨ofFrame, trivial, rests⟩
  | key position subject => exact ofCode_giveOrFail rests position _
  | ternary consequent alternate =>
    refine ⟨?_, rests⟩
    simp only [Machine.resume]
    split
    · exact ofFrame.1
    · exact ofFrame.2
  | branch consequent alternate =>
    refine ⟨?_, rests⟩
    simp only [Machine.resume]
    split
    · exact ofFrame.1
    · exact ofFrame.2
  | whileTest test body last =>
    simp only [Machine.resume]
    split
    · exact ⟨ofFrame.2, ofFrame, rests⟩
    · exact ⟨trivial, rests⟩
  | whileBody test body => exact ⟨ofFrame.1, ofFrame, rests⟩
  | forStart loop => exact ⟨ofFrame.test, ofFrame, rests⟩
  | forTest loop last =>
    simp only [Machine.resume]
    split
    · exact ⟨ofFrame.body, ofFrame, rests⟩
    · exact ⟨trivial, rests⟩
  | forBody loop => exact ⟨ofFrame.update, ofFrame, rests⟩
  | forUpdate loop last => exact ⟨ofFrame.test, ofFrame, rests⟩
  | debug done rest => exact ofCode_evaluateShown rests _ ofFrame
  | sequence rest =>
    cases rest with
    | nil => exact ⟨trivial, rests⟩
    | cons statement rest => exact ⟨ofFrame, rests⟩
  | parameter call name rest => exact ⟨ofFrame, rests⟩
  | _ => exact ⟨trivial, rests⟩

/-- A `return` meets only frames whose work goes on in the scope that it leaves them for. -/
theorem ofCode_leave
    (value : Value)
    {frame : Frame}
    {outside : Prop}
    (returns : Machine.Returns outside (frame :: m.stack))
    (rests : layout.OfStack store (Machine.scopeBelow m.scope frame) m.stack) :
    layout.OfCode store (m.leave value frame) := by
  cases frame with
  | sequence rest => exact ⟨trivial, rests⟩
  | whileBody test body => exact ⟨trivial, rests⟩
  | forBody loop => exact ⟨trivial, rests⟩
  | call caller => exact ⟨trivial, rests⟩
  | _ => exact returns.elim

/-- Being in a layout is a lasting property of values. -/
theorem lasting_ofValue
    (store : Store) :
    Value.Lasting layout.region (layout.OfValue store) where
  null := trivial
  undefined := trivial
  void := trivial
  number _ := trivial
  bool _ := trivial
  string _ := trivial
  array _ := Iff.rfl
  object _ := Iff.rfl
  function _ _ := layout.within
  method _ _ := Iff.rfl

/-- A function is made of the expression at hand, in the scope at hand. -/
theorem ofValue_of_made?
    (ofCode : layout.OfCode store m)
    {value : Value}
    (made : m.made? = some value) :
    layout.OfValue store value := by
  obtain ⟨expr, function, atHand, isFunction, rfl⟩ := Machine.exists_function_of_made? made
  have ofControl := ofCode.control
  rw [atHand] at ofControl
  cases expr with
  | function position name exported parameters body =>
    cases isFunction
    exact layout.part ofControl .function
  | _ => cases isFunction

/-- The code that a step leaves to be run is in the layout, if all code and values were before
it. -/
theorem OfCode.step
    (holds : layout.Holds m)
    {outside : Prop}
    {origin : ScopeRef}
    (contained : m.Contained outside origin) :
    layout.OfCode m.step.store m.step := by
  obtain ⟨control, scope, stack, store⟩ := m
  obtain ⟨⟨ofControl, rests⟩, values⟩ := holds
  cases control with
  | evaluate expr =>
    exact OfCode.grows (Machine.step_extends _) (ofCode_evaluate rests ofControl)
  | execute statement => exact ofCode_execute rests ofControl
  | run body => exact OfCode.grows (Machine.step_extends _) (ofCode_runBody rests ofControl)
  | give value =>
    cases stack with
    | nil => exact ⟨trivial, trivial⟩
    | cons frame rest =>
      exact OfCode.grows (Machine.step_extends _) (ofCode_resume value rests.1 rests.2)
  | unwind value =>
    cases stack with
    | nil => exact ⟨trivial, trivial⟩
    | cons frame rest =>
      exact OfCode.grows (Machine.step_extends _)
        (ofCode_leave value contained.control rests.2)
  | apply callee arguments position =>
    exact ofCode_apply rests values.control.1 arguments position
  | bind call parameters =>
    exact OfCode.grows (Machine.step_extends _) (ofCode_bindParameters rests ofControl)
  | await request position => exact ⟨trivial, rests⟩
  | failed fault => exact ⟨trivial, rests⟩
  | exited status => exact ⟨trivial, rests⟩

/-- A step keeps to every layout. -/
theorem Holds.step
    (holds : layout.Holds m)
    {outside : Prop}
    {origin : ScopeRef}
    (contained : m.Contained outside origin) :
    layout.Holds m.step where
  code := OfCode.step holds contained
  values := by
    have grown := m.step_extends
    have values := holds.values.imp fun _ ofValue => OfValue.grows grown ofValue
    refine values.step (lasting_ofValue _) (fun expr atHand => ?_) (fun stmt atHand => ?_)
      fun value made => OfValue.grows grown (ofValue_of_made? holds.code made)
    · have runs := holds.code.control
      rw [atHand] at runs
      exact layout.within runs
    · have runs := holds.code.control
      rw [atHand] at runs
      exact layout.within runs

end Steps

/-! ## Runs -/

/-- A machine without functions of the surrounding program keeps to a layout, and comes back to a
scope. -/
structure Follows (layout : Layout) (origin : ScopeRef) (m : Machine) : Prop where
  holds : layout.Holds m
  installed : m.Installed
  contained : m.Contained True origin

/-- A program keeps to a layout in which all its statements may be run in the global scope. -/
theorem follows_ofProgram
    {store : Store}
    (installed : store.Installed)
    (ofStore : store.AllIn layout.region (layout.OfValue store))
    {scope : ScopeRef}
    {program : Program}
    (runs : layout.RunsAll store scope program) :
    layout.Follows scope (Machine.ofProgram program scope store) where
  holds := ⟨⟨runs, trivial⟩, ⟨trivial, by simp [Machine.ofProgram], ofStore⟩⟩
  installed := Machine.installed_ofProgram installed program scope
  contained := Machine.contained_ofProgram_outside program scope store

variable {State : Type} {m : Machine} {origin : ScopeRef}

/-- An answer that is plain data is in every layout. -/
theorem Holds.answer
    (holds : layout.Holds m)
    {value : Value}
    (plain : ∀ region p, Value.Steady region p → p value) :
    layout.Holds (m.answer (.ok value)) := by
  obtain ⟨control, scope, stack, store⟩ := m
  have values := holds.values.answer (plain _ _ (lasting_ofValue store).steady)
  cases control with
  | await request position => exact ⟨⟨trivial, holds.code.stack⟩, values⟩
  | _ => exact holds

/-- A machine keeps to a layout, whether it takes a step or is given an answer. -/
theorem Follows.advance
    (follows : layout.Follows origin m)
    (host : Host State)
    (state : State) :
    layout.Follows origin (m.advance host state).1 where
  holds := by
    rcases follows.installed.advance_eq host state with steps | ⟨answer, next, plain, answers⟩
    · rw [steps]
      exact follows.holds.step follows.contained
    · rw [answers]
      exact follows.holds.answer plain
  installed := follows.installed.advance host state
  contained := follows.contained.advance host state

/-- A run keeps to every layout that its beginning keeps to. -/
theorem Follows.run
    (follows : layout.Follows origin m)
    (host : Host State)
    (limit : Nat)
    (state : State) :
    layout.Follows origin (m.run host limit state).1 :=
  Machine.run_preserves host (fun _ state follows => follows.advance host state) follows limit state

/-- What every step that keeps to a layout passes on from store to store is passed on by a run. -/
theorem Follows.run_store
    {p : Store → Prop}
    (follows : layout.Follows origin m)
    (host : Host State)
    (step : ∀ m : Machine, layout.Holds m → p m.store → p m.step.store)
    (begins : p m.store)
    (limit : Nat)
    (state : State) :
    p (m.run host limit state).1.store := by
  have both :=
    Machine.run_preserves (p := fun m => layout.Follows origin m ∧ p m.store) host
      (fun m state ⟨follows, before⟩ => by
        refine ⟨follows.advance host state, ?_⟩
        rcases follows.installed.store_advance host state with steps | same
        · rw [steps]
          exact step m follows.holds before
        · rw [same]
          exact before)
      ⟨follows, begins⟩ limit state
  exact both.2

/-- A machine that calls a value of a layout from outside keeps to it. -/
theorem follows_ofCall
    {store : Store}
    (installed : store.Installed)
    (ofStore : store.AllIn layout.region (layout.OfValue store))
    {callee : Value}
    {arguments : List Value}
    (possible : ∀ value ∈ callee :: arguments, value.Installed ∧ layout.OfValue store value)
    (scope : ScopeRef) :
    layout.Follows scope (Machine.ofCall callee arguments scope store) where
  holds := by
    refine ⟨⟨trivial, trivial⟩, ⟨?_, by simp [Machine.ofCall], ofStore⟩⟩
    exact List.forall_mem_cons.1 fun value mem => (possible value mem).2
  installed := by
    refine ⟨?_, by simp [Machine.ofCall], installed⟩
    exact List.forall_mem_cons.1 fun value mem => (possible value mem).1
  contained := ⟨trivial, trivial, rfl⟩

/-! ## Tests -/

end Layout

/-- Every expression in the function that a value is, or was taken from, passes a test: those in the
defaults of its parameters and those in its body. -/
def Value.Everywhere (test : Expr → Bool) : Value → Prop
  | .function made _ => (Node.function made).everywhere test = true
  | .method receiver _ => receiver.Everywhere test
  | _ => True

/-- A node may be run in a scope of a region, since every expression in it passes a test.  A
function is not run in one scope that has been there before. -/
structure Node.Passing (region : Region) (test : Expr → Bool) (home : ScopeRef) (store : Store)
    (scope : ScopeRef) (node : Node) : Prop where
  known : home.index < store.scopes.size
  fresh : ∀ ref : ScopeRef, store.scopes.size ≤ ref.index → region.scopes ref
  inside : region.scopes scope
  everywhere : node.everywhere test = true
  apart : ∀ statements, node = .body statements → scope ≠ home

namespace Layout

/-- The layout in which every expression passes a test, and in which no function is run in one
scope that has been there before. -/
def passing (region : Region) (test : Expr → Bool) (home : ScopeRef) : Layout where
  region := region
  Runs := Node.Passing region test home
  within := Node.Passing.inside
  grows grown passing :=
    { passing with
      known := grown.known passing.known
      fresh := fun ref new => passing.fresh ref (Nat.le_trans grown.size new) }
  part passing isPart :=
    { passing with
      everywhere := Node.everywhere_part passing.everywhere isPart
      apart := by cases isPart <;> simp }
  inside := by
    intro store scope whole part passing isInside
    have grown := store.extends_newChild scope
    exact
      { known := grown.known passing.known
        fresh := fun ref new => passing.fresh ref (Nat.le_trans grown.size new)
        inside := passing.fresh _ (Nat.le_refl _)
        everywhere := Node.everywhere_inside passing.everywhere isInside
        apart := by
          rintro _ _ rfl
          exact Nat.lt_irrefl _ passing.known }

variable {region : Region} {test : Expr → Bool} {home : ScopeRef}

/-- An expression passes the test that all code in its scope passes. -/
theorem passes_of_runs
    {store : Store}
    {scope : ScopeRef}
    {expr : Expr}
    (runs : (passing region test home).Runs store scope (.expr expr)) :
    test expr = true :=
  Node.passes_of_everywhere runs.everywhere

/-- A call is made in a scope of its own. -/
theorem OfCall.apart
    {store : Store}
    {call : Activation}
    {parameters : List Parameter}
    (ofCall : (passing region test home).OfCall store call parameters) :
    call.scope ≠ home :=
  ofCall.body.apart _ rfl

/-- A run keeps to the tests that its program and the functions known to it pass. -/
theorem follows_ofProgram_of_passes
    {store : Store}
    (installed : store.Installed)
    (known : home.index < store.scopes.size)
    (functions : store.AllIn region fun value => value.Everywhere test ∧ region.Holds value)
    {scope : ScopeRef}
    (inside : region.scopes scope)
    {program : Program}
    (passes : Stmt.allEverywhere test program = true) :
    (passing region test home).Follows scope (Machine.ofProgram program scope store) := by
  have of_everywhere : ∀ {node : Node} {scope : ScopeRef}, node.everywhere test = true →
      (∀ statements, node ≠ .body statements) → region.scopes scope →
        (passing region test home).Runs store scope node := fun everywhere noBody inside =>
    { known := known
      fresh := functions.newScopes
      inside := inside
      everywhere := everywhere
      apart := fun statements isBody => absurd isBody (noBody statements) }
  refine follows_ofProgram installed (functions.imp fun value ofValue => ?_)
    fun statement mem => of_everywhere (Stmt.everywhere_of_mem passes mem) (by simp) inside
  induction value with
  | function made captured => exact of_everywhere ofValue.1 (by simp) ofValue.2
  | method receiver method ih => exact ih ofValue
  | array ref => exact ofValue.2
  | object ref => exact ofValue.2
  | _ => trivial

end Layout
end TinyScript
