import TinyScript.Library.Methods
import TinyScript.Library.Natives
import TinyScript.Operation
import TinyScript.Text.Placeholder

/-!
# The machine

A machine runs a program in small steps.  Its state is what it does at the
moment, the scope in which it does that, a stack of frames that say what follows,
and the store.  A step looks at the current work and at most one frame, so what
lies deeper on the stack has no influence before it is reached.

A run has ended when a value or a `return` meets the empty stack, when a fault
arises, or when the program asks to exit.  A machine that has ended, and one that
waits for the surrounding program, stays as it is.
-/

namespace TinyScript

/-- A call of a function whose arguments are known. -/
structure Activation where
  /-- The scope made for the call. -/
  scope : ScopeRef
  /-- The scope that the function was made in. -/
  captured : ScopeRef
  /-- The scope that the call was made from. -/
  caller : ScopeRef
  /-- The statements of the function. -/
  body : List Stmt

/-- A `for` loop that has begun. -/
structure Loop where
  /-- The scope around the loop. -/
  outer : ScopeRef
  test : Expr
  update : Expr
  body : List Stmt

/-- What follows when the work above it has given a value. -/
inductive Frame
  /-- The remaining items of an array; those before are kept with the latest first. -/
  | items (done : List Value) (rest : List Expr)
  /-- The property that the value is for, and the remaining ones. -/
  | fields (done : Table Value) (key : String) (rest : List Field)
  | right (position : Position) (op : BinaryOp) (operand : Expr)
  | binary (position : Position) (op : BinaryOp) (left : Value)
  | logical (op : LogicalOp) (operand : Expr)
  | unary (position : Position) (op : UnaryOp)
  | assignName (name : String)
  | assignMember (position : Position) (key : String) (value : Expr)
  | assignIndex (position : Position) (key value : Expr)
  | assignKey (position : Position) (subject : Value) (value : Expr)
  | assignValue (position : Position) (subject key : Value)
  | declare (flavour : Flavour) (name : String)
  | callee (position : Position) (arguments : List Expr)
  /-- The remaining arguments of a call; those before are kept with the latest first. -/
  | arguments (position : Position) (callee : Value) (done : List Value) (rest : List Expr)
  | member (position : Position) (key : String)
  | index (position : Position) (key : Expr)
  | key (position : Position) (subject : Value)
  | ternary (consequent alternate : Expr)
  | typeof
  | branch (consequent alternate : List Stmt)
  /-- The loop whose test the value is, with the value of its body so far. -/
  | whileTest (test : Expr) (body : List Stmt) (last : Value)
  | whileBody (test : Expr) (body : List Stmt)
  | forStart (loop : Loop)
  | forTest (loop : Loop) (last : Value)
  | forBody (loop : Loop)
  | forUpdate (loop : Loop) (last : Value)
  | returnValue
  /-- The remaining values to show; the texts of those before are kept with the latest first. -/
  | debug (done : List String) (rest : List Expr)
  | sequence (rest : List Stmt)
  /-- The parameter that the value is for, and the remaining ones. -/
  | parameter (call : Activation) (name : String) (rest : List Parameter)
  /-- The end of a function's body: a `return` goes no further. -/
  | call (caller : ScopeRef)

/-- What a machine does at the moment. -/
inductive Control
  | evaluate (expr : Expr)
  | execute (stmt : Stmt)
  | run (body : List Stmt)
  /-- A value meets the frame that waits for it. -/
  | give (value : Value)
  /-- A `return` leaves frames until it meets the end of a function. -/
  | unwind (value : Value)
  /-- A call from a place in a program, or from outside. -/
  | apply (callee : Value) (arguments : List Value) (position : Option Position)
  /-- A call binds its remaining parameters, for which there are no arguments. -/
  | bind (call : Activation) (parameters : List Parameter)
  /-- The surrounding program has to answer; a fault of its own belongs to the place. -/
  | await (request : Request) (position : Option Position)
  | failed (fault : Fault)
  | exited (status : Int)

/-- A program in the middle of its run. -/
structure Machine where
  control : Control
  /-- The scope at hand. -/
  scope : ScopeRef
  /-- What follows, the next frame first. -/
  stack : List Frame
  store : Store

namespace Machine

/-- The machine that evaluates an expression next, and then goes on with a frame. -/
def enter (m : Machine) (expr : Expr) (frame : Frame) : Machine :=
  { m with control := .evaluate expr, stack := frame :: m.stack }

/-- The machine that gives a value next. -/
def give (m : Machine) (value : Value) : Machine :=
  { m with control := .give value }

/-- The machine that has met a fault. -/
def fail (m : Machine) (position : Option Position) (cause : Fault.Cause) : Machine :=
  { m with control := .failed { cause := cause, position := position } }

/-- The machine that gives a result, or has met a fault at a place. -/
def giveOrFail (m : Machine) (position : Position) (result : Except Fault.Cause Value) : Machine :=
  match result with
  | .ok value => m.give value
  | .error cause => m.fail (some position) cause

/-! ## Expressions -/

/-- The text that a name in a string literal is replaced by. -/
def meaning? (m : Machine) (name : String) : Option String :=
  (m.store.lookup? m.scope name).map m.store.display

/-- Goes on with the items of an array. -/
def evaluateItems (m : Machine) (done : List Value) : List Expr → Machine
  | [] =>
    let (ref, store) := m.store.newArray done.reverse.toArray
    { m with control := .give (.array ref), store := store }
  | item :: rest => m.enter item (.items done rest)

/-- Goes on with the properties of an object. -/
def evaluateFields (m : Machine) (done : Table Value) : List Field → Machine
  | [] =>
    let (ref, store) := m.store.newObject done
    { m with control := .give (.object ref), store := store }
  | .mk key value :: rest => m.enter value (.fields done key rest)

/-- Goes on with the arguments of a call. -/
def evaluateArguments (m : Machine) (position : Position) (callee : Value) (done : List Value) :
    List Expr → Machine
  | [] => { m with control := .apply callee done.reverse (some position) }
  | argument :: rest => m.enter argument (.arguments position callee done rest)

/-- Goes on with the values of a `debug` statement. -/
def evaluateShown (m : Machine) (done : List String) : List Expr → Machine
  | [] =>
    let line := "DEBUG: " ++ ", ".intercalate done.reverse
    { m with control := .give .void, store := m.store.writeLine line }
  | value :: rest => m.enter value (.debug done rest)

/-- Changes a variable by one.  It must hold a number already. -/
def stepName (m : Machine) (position : Position) (side : StepSide) (op : StepOp)
    (name : String) : Machine :=
  match m.store.lookup m.scope name with
  | .number old =>
    let new :=
      match op with
      | .increment => old + 1.0
      | .decrement => old - 1.0
    let result :=
      match side with
      | .before => new
      | .behind => old
    { m with
      control := .give (.number result)
      store := m.store.assign m.scope name (.number new) }
  | _ => m.fail (some position) (.stepValue op name)

/-- Makes a function in the scope at hand, which a named function is also bound in. -/
def makeFunction (m : Machine) (function : Function) : Machine :=
  let value := Value.function function m.scope
  match function.name with
  | none => m.give value
  | some name =>
    { m with control := .give value, store := m.store.declare m.scope name value true }

/-- Begins to evaluate an expression. -/
def evaluate (m : Machine) : Expr → Machine
  | .number _ value => m.give (.number value)
  | .text _ value => m.give (.string (Text.fill m.meaning? value))
  | .bool _ value => m.give (.bool value)
  | .undefined _ => m.give .undefined
  | .null _ => m.give .null
  | .name _ name => m.give (m.store.lookup m.scope name)
  | .array _ items => m.evaluateItems [] items
  | .object _ fields => m.evaluateFields .empty fields
  | .binary position op left right => m.enter left (.right position op right)
  | .logical _ op left right => m.enter left (.logical op right)
  | .unary position op operand => m.enter operand (.unary position op)
  | .step position side op (.name _ name) => m.stepName position side op name
  | .step position _ op _ => m.fail (some position) (.stepTarget op)
  | .assign _ (.name _ name) value => m.enter value (.assignName name)
  | .assign position (.member _ subject key) value =>
    m.enter subject (.assignMember position key value)
  | .assign position (.index _ subject key) value =>
    m.enter subject (.assignIndex position key value)
  | .assign position _ _ => m.fail (some position) .assignmentTarget
  | .declare _ flavour name value => m.enter value (.declare flavour name)
  | .call position callee arguments => m.enter callee (.callee position arguments)
  | .member position subject key => m.enter subject (.member position key)
  | .index position subject key => m.enter subject (.index position key)
  | .ternary _ test consequent alternate => m.enter test (.ternary consequent alternate)
  | .typeof _ operand => m.enter operand .typeof
  | .function _ name exported parameters body =>
    m.makeFunction { name := name, exported := exported, parameters := parameters, body := body }

/-! ## Statements -/

/-- Runs statements one after the other; the value of the last one is theirs. -/
def runBody (m : Machine) : List Stmt → Machine
  | [] => m.give .void
  | stmt :: rest => { m with control := .execute stmt, stack := .sequence rest :: m.stack }

/-- Begins to execute a statement. -/
def execute (m : Machine) : Stmt → Machine
  | .expr _ value => { m with control := .evaluate value }
  | .branch _ test consequent alternate => m.enter test (.branch consequent alternate)
  | .whileLoop _ test body => m.enter test (.whileTest test body .void)
  | .forLoop _ start test update body =>
    let (scope, store) := m.store.newChild m.scope
    let loop : Loop := { outer := m.scope, test := test, update := update, body := body }
    { m with
      control := .evaluate start
      scope := scope
      stack := .forStart loop :: m.stack
      store := store }
  | .returnValue _ value => m.enter value .returnValue
  | .returnNothing _ => { m with control := .unwind .void }
  | .debug _ values => m.evaluateShown [] values
  | .use _ _ => m.give .void

/-! ## Calls -/

/-- Does what a call of a native or member function asks for. -/
def act (m : Machine) (position : Option Position) : Action → Machine
  | .yield value => m.give value
  | .make items =>
    let (ref, store) := m.store.newArray items.toArray
    { m with control := .give (.array ref), store := store }
  | .push ref items =>
    let store := m.store.modifyArray ref (· ++ items)
    { m with control := .give (.number (Float.ofNat (store.array ref).size)), store := store }
  | .pop ref last =>
    { m with control := .give last, store := m.store.modifyArray ref Array.pop }
  | .print line => { m with control := .give .void, store := m.store.writeLine line }
  | .ask prompt request =>
    { m with control := .await request position, store := m.store.write prompt }
  | .apply callee arguments => { m with control := .apply callee arguments position }
  | .exit status => { m with control := .exited status }

/-- Does what a call came to, or has met a fault. -/
def actOrFail (m : Machine) (position : Option Position) (result : Except Fault.Cause Action) :
    Machine :=
  match result with
  | .ok action => m.act position action
  | .error cause => m.fail position cause

/-- Binds parameters in a scope to arguments, as long as there are both. -/
def bindArguments (store : Store) (scope : ScopeRef) : List Parameter → List Value →
    Store
  | parameter :: parameters, argument :: arguments =>
    bindArguments (store.declare scope parameter.name argument false) scope parameters arguments
  | _, _ => store

/-- Begins a call of a function: a scope inside the one that the function was made in, with the
parameters that there are arguments for. -/
def activate (m : Machine) (function : Function) (captured : ScopeRef) (arguments : List Value) :
    Machine :=
  let (scope, store) := m.store.newChild captured
  let call : Activation :=
    { scope := scope, captured := captured, caller := m.scope, body := function.body }
  { m with
    control := .bind call (function.parameters.drop arguments.length)
    store := bindArguments store scope function.parameters arguments }

/-- Binds the next parameter without an argument.  Its default is evaluated in the scope that
the function was made in. -/
def bindParameters (m : Machine) (call : Activation) : List Parameter → Machine
  | [] =>
    { m with
      control := .run call.body
      scope := call.scope
      stack := .call call.caller :: m.stack }
  | .required name :: rest =>
    { m with
      control := .bind call rest
      store := m.store.declare call.scope name .undefined false }
  | .optional name default :: rest =>
    { m with
      control := .evaluate default
      scope := call.captured
      stack := .parameter call name rest :: m.stack }

/-- Calls a value. -/
def apply (m : Machine) (callee : Value) (arguments : List Value) (position : Option Position) :
    Machine :=
  match callee with
  | .function function captured => m.activate function captured arguments
  | .native native => m.actOrFail position (native.perform arguments m.scope m.store)
  | .method receiver method => m.actOrFail position (method.perform receiver arguments m.store)
  | _ => m.fail position (.notCallable callee.typeTag)

/-! ## Frames -/

/-- Goes on with a `for` loop after a value of its body. -/
def testLoop (m : Machine) (loop : Loop) (last : Value) : Machine :=
  m.enter loop.test (.forTest loop last)

/-- Goes on with a frame, which has been taken off the stack, and the value that it waited
for. -/
def resume (m : Machine) (value : Value) : Frame → Machine
  | .items done rest => m.evaluateItems (value :: done) rest
  | .fields done key rest => m.evaluateFields (done.insert key value) rest
  | .right position op operand => m.enter operand (.binary position op value)
  | .binary position op left => m.giveOrFail position (m.store.binary op left value)
  | .logical op operand =>
    if m.store.isTruthy value == (op == .either) then m.give value
    else { m with control := .evaluate operand }
  | .unary position op => m.giveOrFail position (m.store.unary op value)
  | .assignName name =>
    { m with control := .give value, store := m.store.assign m.scope name value }
  | .assignMember position key expr => m.enter expr (.assignValue position value (.string key))
  | .assignIndex position key expr => m.enter key (.assignKey position value expr)
  | .assignKey position subject expr => m.enter expr (.assignValue position subject value)
  | .assignValue position subject key =>
    match m.store.place subject key with
    | .ok place => { m with control := .give value, store := m.store.put value place }
    | .error cause => m.fail (some position) cause
  | .declare flavour name =>
    { m with
      control := .give value
      store := m.store.declare m.scope name value (flavour == .const) }
  | .callee position arguments => m.evaluateArguments position value [] arguments
  | .arguments position callee done rest =>
    m.evaluateArguments position callee (value :: done) rest
  | .member position key => m.giveOrFail position (m.store.member value (.string key))
  | .index position key => m.enter key (.key position value)
  | .key position subject => m.giveOrFail position (m.store.member subject value)
  | .ternary consequent alternate =>
    { m with control := .evaluate (if m.store.isTruthy value then consequent else alternate) }
  | .typeof => m.give (.string value.typeTag.name)
  | .branch consequent alternate =>
    { m with control := .run (if m.store.isTruthy value then consequent else alternate) }
  | .whileTest test body last =>
    if m.store.isTruthy value then
      { m with control := .run body, stack := .whileBody test body :: m.stack }
    else m.give last
  | .whileBody test body => m.enter test (.whileTest test body value)
  | .forStart loop => m.testLoop loop .void
  | .forTest loop last =>
    if m.store.isTruthy value then
      { m with control := .run loop.body, stack := .forBody loop :: m.stack }
    else { m with control := .give last, scope := loop.outer }
  | .forBody loop => m.enter loop.update (.forUpdate loop value)
  | .forUpdate loop last => m.testLoop loop last
  | .returnValue => { m with control := .unwind value }
  | .debug done rest => m.evaluateShown (m.store.repr value :: done) rest
  | .sequence [] => m.give value
  | .sequence rest => { m with control := .run rest }
  | .parameter call name rest =>
    { m with
      control := .bind call rest
      store := m.store.declare call.scope name value false }
  | .call caller => { m with control := .give .void, scope := caller }

/-- Leaves a frame, which has been taken off the stack, because of a `return`. -/
def leave (m : Machine) (value : Value) : Frame → Machine
  | .call caller => { m with control := .give value, scope := caller }
  | .forStart loop | .forTest loop _ | .forBody loop | .forUpdate loop _ =>
    { m with control := .unwind value, scope := loop.outer }
  | _ => { m with control := .unwind value }

/-! ## Steps -/

/-- One step of a run. -/
def step (m : Machine) : Machine :=
  match m.control with
  | .evaluate expr => m.evaluate expr
  | .execute stmt => m.execute stmt
  | .run body => m.runBody body
  | .give value =>
    match m.stack with
    | [] => m
    | frame :: rest => ({ m with stack := rest } : Machine).resume value frame
  | .unwind value =>
    match m.stack with
    | [] => m
    | frame :: rest => ({ m with stack := rest } : Machine).leave value frame
  | .apply callee arguments position => m.apply callee arguments position
  | .bind call parameters => m.bindParameters call parameters
  | .await _ _ | .failed _ | .exited _ => m

end Machine

/-- How a run ends. -/
inductive Outcome
  | completed (value : Value)
  | failed (fault : Fault)
  | exited (status : Int)

namespace Machine

/-- The end of a run, once it is reached.  A `return` outside every function ends the program
with its value. -/
def outcome? (m : Machine) : Option Outcome :=
  match m.control, m.stack with
  | .give value, [] | .unwind value, [] => some (.completed value)
  | .failed fault, _ => some (.failed fault)
  | .exited status, _ => some (.exited status)
  | _, _ => none

/-- The question that a machine waits to be answered. -/
def request? (m : Machine) : Option Request :=
  match m.control with
  | .await request _ => some request
  | _ => none

/-- The machine that goes on with the answer to its question. -/
def answer (m : Machine) (reply : Except String Value) : Machine :=
  match m.control with
  | .await _ position =>
    match reply with
    | .ok value => m.give value
    | .error message => m.fail position (.host message)
  | _ => m

/-- The machine that runs a program in a scope. -/
def ofProgram (program : Program) (scope : ScopeRef) (store : Store) : Machine :=
  { control := .run program, scope := scope, stack := [], store := store }

/-- The machine that calls a value from outside, in a scope. -/
def ofCall (callee : Value) (arguments : List Value) (scope : ScopeRef) (store : Store) :
    Machine :=
  { control := .apply callee arguments none, scope := scope, stack := [], store := store }

end Machine
end TinyScript
