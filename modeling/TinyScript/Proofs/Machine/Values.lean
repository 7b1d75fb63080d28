import TinyScript.Proofs.Store.Values

/-!
# The values of a machine

A machine makes new values only out of data, out of functions written in the program
and out of members of values that are there already.  A property of data that passes to
members holds of every value after a step if it held of those before it and holds of the
function, array or object that the step makes, if it makes one.  In the store it need only
hold of a region that the code at hand is run in.
-/

namespace TinyScript

/-- A property of values that data has and that passes from a value to its members and back.  No
value that has it leads out of a region. -/
structure Value.Lasting (region : Region) (p : Value → Prop) : Prop where
  null : p .null
  undefined : p .undefined
  void : p .void
  number : ∀ value, p (.number value)
  bool : ∀ value, p (.bool value)
  string : ∀ value, p (.string value)
  array : ∀ ref, p (.array ref) ↔ region.arrays ref
  object : ∀ ref, p (.object ref) ↔ region.objects ref
  function : ∀ function captured, p (.function function captured) → region.scopes captured
  method : ∀ receiver method, p (.method receiver method) ↔ p receiver

/-- A property of values that data has and that passes from a value to its members and back.  The
arrays and objects that have it are in a region. -/
structure Value.Steady (region : Region) (p : Value → Prop) : Prop where
  null : p .null
  undefined : p .undefined
  void : p .void
  number : ∀ value, p (.number value)
  bool : ∀ value, p (.bool value)
  string : ∀ value, p (.string value)
  array : ∀ ref, p (.array ref) → region.arrays ref
  object : ∀ ref, p (.object ref) → region.objects ref
  function : ∀ function captured, p (.function function captured) → region.scopes captured
  method : ∀ receiver method, p (.method receiver method) ↔ p receiver

/-- A lasting property is a steady one. -/
theorem Value.Lasting.steady
    {region : Region}
    {p : Value → Prop}
    (lasting : Value.Lasting region p) :
    Value.Steady region p :=
  { lasting with
    array := fun ref => (lasting.array ref).1
    object := fun ref => (lasting.object ref).1 }

/-- If a later store has a further array or object, then a property holds of it. -/
structure Store.Adds (p : Value → Prop) (store later : Store) : Prop where
  array : store.arrays.size < later.arrays.size → p (.array ⟨store.arrays.size⟩)
  object : store.objects.size < later.objects.size → p (.object ⟨store.objects.size⟩)

theorem Store.size_newArray_lt
    (store : Store)
    (items : Array Value) :
    store.arrays.size < (store.newArray items).2.arrays.size := by
  simp [newArray]

theorem Store.size_newObject_lt
    (store : Store)
    (properties : Table Value) :
    store.objects.size < (store.newObject properties).2.objects.size := by
  simp [newObject]

/-- A property holds of every value in a question.  One to the surrounding program is asked by a
native function that has it. -/
def Request.All (p : Value → Prop) : Request → Prop
  | .readLine | .clock | .random => True
  | .host name arguments _ =>
    (∃ arity, p (.native (.host name arity))) ∧ ∀ argument ∈ arguments, p argument

/-- A property holds of every value in an action. -/
def Action.All (p : Value → Prop) : Action → Prop
  | .yield value => p value
  | .make items => ∀ item ∈ items, p item
  | .push _ items => ∀ item ∈ items, p item
  | .pop _ last => p last
  | .print _ => True
  | .ask _ request => request.All p
  | .apply callee arguments => p callee ∧ ∀ argument ∈ arguments, p argument
  | .exit _ => True

/-- A property holds of every value in a frame. -/
def Frame.All (p : Value → Prop) : Frame → Prop
  | .items done _ => ∀ item ∈ done, p item
  | .fields done _ _ => done.All p
  | .binary _ _ left => p left
  | .assignKey _ subject _ => p subject
  | .assignValue _ subject subscript => p subject ∧ p subscript
  | .arguments _ value done _ => p value ∧ ∀ argument ∈ done, p argument
  | .key _ subject => p subject
  | .whileTest _ _ last => p last
  | .forTest _ last => p last
  | .forUpdate _ last => p last
  | _ => True

/-- A property holds of every value in the work of a machine. -/
def Control.All (p : Value → Prop) : Control → Prop
  | .give value => p value
  | .unwind value => p value
  | .apply callee arguments _ => p callee ∧ ∀ argument ∈ arguments, p argument
  | .await request _ => request.All p
  | _ => True

/-- A property holds of every value in a machine. -/
structure Machine.All (p : Value → Prop) (m : Machine) : Prop where
  control : m.control.All p
  stack : ∀ frame ∈ m.stack, frame.All p
  store : m.store.All p

/-- A property holds of every value that a machine works with, and in a region of its store. -/
structure Machine.AllIn (region : Region) (p : Value → Prop) (m : Machine) : Prop where
  control : m.control.All p
  stack : ∀ frame ∈ m.stack, frame.All p
  store : m.store.AllIn region p

/-- A property holds of all values when it holds of those in the whole of a store. -/
theorem Machine.all_iff_allIn
    {p : Value → Prop}
    {m : Machine} :
    m.All p ↔ m.AllIn .whole p :=
  ⟨fun all => ⟨all.control, all.stack, Store.all_iff_allIn.1 all.store⟩,
    fun all => ⟨all.control, all.stack, Store.all_iff_allIn.2 all.store⟩⟩

section Implication

variable {p q : Value → Prop} (implies : ∀ value, p value → q value)

include implies

theorem Request.All.imp
    {request : Request}
    (all : request.All p) :
    request.All q := by
  cases request with
  | host name arguments scope =>
    obtain ⟨⟨arity, native⟩, each⟩ := all
    exact ⟨⟨arity, implies _ native⟩, fun argument mem => implies _ (each argument mem)⟩
  | _ => trivial

theorem Frame.All.imp
    {frame : Frame}
    (all : frame.All p) :
    frame.All q := by
  cases frame with
  | items done rest => exact fun item mem => implies _ (all item mem)
  | fields done key rest => exact Table.All.imp all implies
  | binary position op left => exact implies _ all
  | assignKey position subject expr => exact implies _ all
  | assignValue position subject key => exact ⟨implies _ all.1, implies _ all.2⟩
  | arguments position callee done rest =>
    exact ⟨implies _ all.1, fun argument mem => implies _ (all.2 argument mem)⟩
  | key position subject => exact implies _ all
  | whileTest test body last => exact implies _ all
  | forTest loop last => exact implies _ all
  | forUpdate loop last => exact implies _ all
  | _ => trivial

theorem Control.All.imp
    {control : Control}
    (all : control.All p) :
    control.All q := by
  cases control with
  | give value => exact implies _ all
  | unwind value => exact implies _ all
  | apply callee arguments position =>
    exact ⟨implies _ all.1, fun argument mem => implies _ (all.2 argument mem)⟩
  | await request position => exact Request.All.imp implies all
  | _ => trivial

/-- A machine whose values have a property has values with every weaker one. -/
theorem Machine.AllIn.imp
    {region : Region}
    {m : Machine}
    (all : m.AllIn region p) :
    m.AllIn region q where
  control := Control.All.imp implies all.control
  stack frame mem := Frame.All.imp implies (all.stack frame mem)
  store := all.store.imp implies

end Implication

/-- A property holds of the value that a computation gives, if it gives one. -/
def Gives {ε α : Type} (p : α → Prop) (result : Except ε α) : Prop :=
  ∀ value, result = .ok value → p value

/-- A computation in two parts has a result only if its first part has. -/
theorem exists_of_bind_eq_ok
    {ε α β : Type}
    {first : Except ε α}
    {second : α → Except ε β}
    {result : β}
    (ok : first >>= second = .ok result) :
    ∃ value, first = .ok value ∧ second value = .ok result := by
  cases first with
  | ok value => exact ⟨value, rfl, ok⟩
  | error cause => cases ok

/-- A result that passes a test is there. -/
theorem exists_ok_of_any
    {ε α : Type}
    {result : Except ε α}
    {test : α → Bool}
    (passes : result.toOption.any test = true) :
    ∃ value, result = .ok value ∧ test value = true := by
  cases result with
  | ok value => exact ⟨value, rfl, passes⟩
  | error cause => cases passes

variable {region : Region} {p : Value → Prop} (steady : Value.Steady region p)

/-! ## Operators and members -/

namespace Store

variable {store : Store}

include steady

/-- Arithmetic gives numbers and texts. -/
theorem gives_arithmetic
    (op : Arithmetic)
    (left right : Value) :
    Gives p (store.arithmetic op left right) := by
  intro value ok
  unfold arithmetic at ok
  split at ok
  · cases ok
    exact steady.number _
  · split at ok
    · cases ok
      exact steady.string _
    · cases ok

/-- An operator gives data. -/
theorem gives_binary
    (op : BinaryOp)
    (left right : Value) :
    Gives p (store.binary op left right) := by
  intro value ok
  cases op with
  | arithmetic op => exact gives_arithmetic steady op left right value ok
  | equal =>
    cases ok
    exact steady.bool _
  | notEqual =>
    cases ok
    exact steady.bool _
  | comparison op =>
    simp only [binary] at ok
    split at ok
    · cases ok
      exact steady.bool _
    · cases ok

/-- An operator with one operand gives data. -/
theorem gives_unary
    (op : UnaryOp)
    (operand : Value) :
    Gives p (store.unary op operand) := by
  intro value ok
  unfold unary at ok
  split at ok <;> cases ok
  · exact steady.bool _
  · exact steady.number _
  · exact steady.number _

/-- A member of a value with a steady property has it as well. -/
theorem gives_member
    (all : store.AllIn region p)
    {subject : Value}
    (ofSubject : p subject)
    (key : Value) :
    Gives p (store.member subject key) := by
  intro value ok
  unfold member at ok
  cases text : keyText key with
  | error cause =>
    rw [text] at ok
    cases ok
  | ok text' =>
    rw [text] at ok
    simp only [bind, Except.bind] at ok
    split at ok
    · rename_i own found
      cases ok
      cases subject with
      | array ref =>
        obtain ⟨index, _, item⟩ := Option.bind_eq_some_iff.1 found
        exact all.items ref (steady.array ref ofSubject) value (Array.mem_of_getElem? item)
      | object ref => exact (all.properties ref (steady.object ref ofSubject)).find? found
      | _ => cases found
    · split at ok
      · cases ok
        exact (steady.method _ _).2 ofSubject
      · cases ok
        exact steady.undefined

end Store

/-! ## Functions of the library -/

include steady in
/-- The least and the greatest of some numbers are numbers. -/
theorem Native.gives_foldNumbers
    (name : String)
    (pick : Float → Float → Float)
    (start : Float)
    (arguments : List Value) :
    Gives p (foldNumbers name pick start arguments) := by
  intro value ok
  obtain ⟨number, _, given⟩ := exists_of_bind_eq_ok ok
  cases given
  exact steady.number number

include steady in
/-- A function of the library gives what has every steady property of its arguments. -/
theorem Native.gives_run
    {native : Native}
    (ofNative : p (.native native))
    {arguments : List Value}
    (ofArguments : ∀ argument ∈ arguments, p argument)
    (scope : ScopeRef)
    (store : Store) :
    Gives (Action.All p) (native.run arguments scope store) := by
  intro action ok
  cases native with
  | length =>
    obtain ⟨length, _, given⟩ := exists_of_bind_eq_ok ok
    cases given
    exact steady.number _
  | exit =>
    obtain ⟨status, _, given⟩ := exists_of_bind_eq_ok ok
    cases given
    trivial
  | math function =>
    obtain ⟨value, _, given⟩ := exists_of_bind_eq_ok ok
    cases given
    exact steady.number _
  | min =>
    obtain ⟨value, folded, given⟩ := exists_of_bind_eq_ok ok
    cases given
    exact gives_foldNumbers steady _ _ _ _ value folded
  | max =>
    obtain ⟨value, folded, given⟩ := exists_of_bind_eq_ok ok
    cases given
    exact gives_foldNumbers steady _ _ _ _ value folded
  | pow =>
    obtain ⟨base, _, given⟩ := exists_of_bind_eq_ok ok
    obtain ⟨exponent, _, given⟩ := exists_of_bind_eq_ok given
    cases given
    exact steady.number _
  | host name arity =>
    cases ok
    exact ⟨⟨arity, ofNative⟩, ofArguments⟩
  | int | float =>
    cases ok
    exact steady.number _
  | string =>
    cases ok
    exact steady.string _
  | print | input | time | random =>
    cases ok
    trivial

include steady in
/-- A function of the library fails when it does not take so many arguments, and otherwise gives
what has every steady property of them. -/
theorem Native.gives_perform
    {native : Native}
    (ofNative : p (.native native))
    {arguments : List Value}
    (ofArguments : ∀ argument ∈ arguments, p argument)
    (scope : ScopeRef)
    (store : Store) :
    Gives (Action.All p) (native.perform arguments scope store) := by
  have run := gives_run steady ofNative ofArguments scope store
  intro action ok
  unfold perform at ok
  split at ok
  · exact run action ok
  · split at ok
    · exact run action ok
    · cases ok

namespace Method

include steady

/-- An array of texts has only data in it. -/
theorem all_make_strings
    (texts : List String) :
    (Action.make (texts.map Value.string)).All p := by
  intro item mem
  obtain ⟨text, _, rfl⟩ := List.mem_map.1 mem
  exact steady.string text

/-- A method of a text gives data. -/
theorem gives_runText
    (method : Method)
    (text : String)
    (arguments : List Value) :
    Gives (Action.All p) (method.runText text arguments) := by
  intro action ok
  cases method with
  | charAt =>
    obtain ⟨value, _, ok⟩ := exists_of_bind_eq_ok ok
    obtain ⟨index, _, ok⟩ := exists_of_bind_eq_ok ok
    cases ok
    exact steady.string _
  | substring =>
    match arguments with
    | [] => cases ok
    | [start] =>
      obtain ⟨first, _, ok⟩ := exists_of_bind_eq_ok ok
      obtain ⟨piece, _, ok⟩ := exists_of_bind_eq_ok ok
      cases ok
      exact steady.string _
    | [start, stop] =>
      obtain ⟨first, _, ok⟩ := exists_of_bind_eq_ok ok
      obtain ⟨last, _, ok⟩ := exists_of_bind_eq_ok ok
      obtain ⟨piece, _, ok⟩ := exists_of_bind_eq_ok ok
      cases ok
      exact steady.string _
    | first :: second :: third :: rest => cases ok
  | split =>
    obtain ⟨value, _, ok⟩ := exists_of_bind_eq_ok ok
    obtain ⟨separator, _, ok⟩ := exists_of_bind_eq_ok ok
    cases ok
    exact all_make_strings steady _
  | textLength =>
    cases ok
    exact steady.number _
  | upperCase | lowerCase =>
    cases ok
    exact steady.string _
  | _ =>
    cases ok
    exact steady.undefined

/-- A method of an array gives what has every steady property of its items and arguments. -/
theorem gives_runArray
    (method : Method)
    {ref : ArrayRef}
    (inside : region.arrays ref)
    {arguments : List Value}
    (ofArguments : ∀ argument ∈ arguments, p argument)
    {store : Store}
    (all : store.AllIn region p) :
    Gives (Action.All p) (method.runArray ref arguments store) := by
  intro action ok
  cases method with
  | arrayLength =>
    cases ok
    exact steady.number _
  | push =>
    simp only [runArray] at ok
    split at ok
    · cases ok
    · cases ok
      exact ofArguments
  | pop =>
    simp only [runArray] at ok
    split at ok
    · cases ok
    · rename_i last found
      cases ok
      exact all.items ref inside last (Array.mem_of_back? found)
  | join =>
    obtain ⟨value, _, ok⟩ := exists_of_bind_eq_ok ok
    obtain ⟨separator, _, ok⟩ := exists_of_bind_eq_ok ok
    cases ok
    exact steady.string _
  | includes =>
    obtain ⟨needle, _, ok⟩ := exists_of_bind_eq_ok ok
    cases ok
    exact steady.bool _
  | _ =>
    cases ok
    exact steady.undefined

/-- A method of an object gives what has every steady property of its properties. -/
theorem all_runObject
    (method : Method)
    {ref : ObjectRef}
    (inside : region.objects ref)
    {store : Store}
    (all : store.AllIn region p) :
    (method.runObject ref store).All p := by
  cases method with
  | keys => exact all_make_strings steady _
  | values => exact (all.properties ref inside).values
  | _ => exact steady.undefined

/-- A method gives what has every steady property of its receiver and arguments. -/
theorem gives_perform
    (method : Method)
    {receiver : Value}
    (ofReceiver : p receiver)
    {arguments : List Value}
    (ofArguments : ∀ argument ∈ arguments, p argument)
    {store : Store}
    (all : store.AllIn region p) :
    Gives (Action.All p) (method.perform receiver arguments store) := by
  have shown : Gives (Action.All p) (runDisplay receiver arguments store) := by
    intro action ok
    unfold runDisplay at ok
    split at ok
    · cases ok
      exact steady.string _
    · cases ok
  cases receiver with
  | string text => exact gives_runText steady method text arguments
  | array ref =>
    exact gives_runArray steady method (steady.array ref ofReceiver) ofArguments all
  | object ref =>
    intro action ok
    cases ok
    exact all_runObject steady method (steady.object ref ofReceiver) all
  | function function scope =>
    intro action ok
    simp only [perform, runFunction] at ok
    split at ok
    · cases ok
      exact ⟨ofReceiver, ofArguments⟩
    · cases ok
  | _ => exact shown

end Method

/-! ## Machines -/

/-- The function that an expression makes, if it is one. -/
def Expr.function? : Expr → Option Function
  | .function _ label exported parameters body =>
    some { name := label, exported := exported, parameters := parameters, body := body }
  | _ => none

namespace Machine

variable {m : Machine}

/-- The function value that the next step makes, if it makes one. -/
def made? (m : Machine) : Option Value :=
  match m.control with
  | .evaluate expr => expr.function?.map fun function => .function function m.scope
  | _ => none

/-- A value is only made of an expression for a function, in the scope at hand. -/
theorem exists_function_of_made?
    {value : Value}
    (made : m.made? = some value) :
    ∃ expr function,
      m.control = .evaluate expr ∧ expr.function? = some function ∧
        value = .function function m.scope := by
  obtain ⟨control, scope, stack, store⟩ := m
  cases control with
  | evaluate expr =>
    obtain ⟨function, isFunction, rfl⟩ := Option.map_eq_some_iff.1 made
    exact ⟨expr, function, rfl, isFunction, rfl⟩
  | _ => cases made

/-- Nothing becomes a value when an operand is entered. -/
theorem AllIn.enter
    (all : m.AllIn region p)
    (expr : Expr)
    {frame : Frame}
    (ofFrame : frame.All p) :
    (m.enter expr frame).AllIn region p :=
  ⟨trivial, List.forall_mem_cons.2 ⟨ofFrame, all.stack⟩, all.store⟩

/-- A value that is handed to the frame on top has the property of the others. -/
theorem AllIn.give
    (all : m.AllIn region p)
    {value : Value}
    (ofValue : p value) :
    (m.give value).AllIn region p :=
  ⟨ofValue, all.stack, all.store⟩

/-- There are no values in a fault. -/
theorem AllIn.fail
    (all : m.AllIn region p)
    (position : Option Position)
    (cause : Fault.Cause) :
    (m.fail position cause).AllIn region p :=
  ⟨trivial, all.stack, all.store⟩

/-- A computation that gives values with a property goes on with one. -/
theorem AllIn.giveOrFail
    (all : m.AllIn region p)
    (position : Position)
    {result : Except Fault.Cause Value}
    (gives : Gives p result) :
    (m.giveOrFail position result).AllIn region p := by
  cases result with
  | ok value => exact all.give (gives value rfl)
  | error cause => exact all.fail (some position) cause

/-- The items that are done have the property, and so has the array made of them. -/
theorem AllIn.evaluateItems
    (all : m.AllIn region p)
    {done : List Value}
    (ofDone : ∀ item ∈ done, p item)
    (items : List Expr)
    (adds : m.store.Adds p (m.evaluateItems done items).store) :
    (m.evaluateItems done items).AllIn region p := by
  cases items with
  | nil =>
    refine ⟨adds.array (m.store.size_newArray_lt _), all.stack, all.store.newArray ?_⟩
    simpa using ofDone
  | cons item items => exact all.enter item ofDone

/-- The properties that are done have the property, and so has the object made of them. -/
theorem AllIn.evaluateFields
    (all : m.AllIn region p)
    {done : Table Value}
    (ofDone : done.All p)
    (fields : List Field)
    (adds : m.store.Adds p (m.evaluateFields done fields).store) :
    (m.evaluateFields done fields).AllIn region p := by
  cases fields with
  | nil =>
    exact ⟨adds.object (m.store.size_newObject_lt _), all.stack, all.store.newObject ofDone⟩
  | cons field fields =>
    obtain ⟨key, value⟩ := field
    exact all.enter value ofDone

/-- The function and the arguments that are done have the property. -/
theorem AllIn.evaluateArguments
    (all : m.AllIn region p)
    (position : Position)
    {callee : Value}
    (ofCallee : p callee)
    {done : List Value}
    (ofDone : ∀ argument ∈ done, p argument)
    (arguments : List Expr) :
    (m.evaluateArguments position callee done arguments).AllIn region p := by
  cases arguments with
  | nil => exact ⟨⟨ofCallee, by simpa using ofDone⟩, all.stack, all.store⟩
  | cons argument arguments => exact all.enter argument ⟨ofCallee, ofDone⟩

include steady

/-- No value is kept of what is shown. -/
theorem AllIn.evaluateShown
    (all : m.AllIn region p)
    (done : List String)
    (values : List Expr) :
    (m.evaluateShown done values).AllIn region p := by
  cases values with
  | nil => exact ⟨steady.void, all.stack, all.store.writeLine _⟩
  | cons value values => exact all.enter value trivial

omit steady in
/-- A body that is at its end gives nothing but the void value. -/
theorem AllIn.runBody
    (all : m.AllIn region p)
    (body : List Stmt)
    (void : p .void) :
    (m.runBody body).AllIn region p := by
  cases body with
  | nil => exact all.give void
  | cons stmt rest =>
    exact ⟨trivial, List.forall_mem_cons.2 ⟨trivial, all.stack⟩, all.store⟩

/-- A variable is counted up or down to a number. -/
theorem AllIn.stepName
    (all : m.AllIn region p)
    (position : Position)
    (side : StepSide)
    (op : StepOp)
    (name : String) :
    (m.stepName position side op name).AllIn region p := by
  unfold Machine.stepName
  split
  · exact ⟨steady.number _, all.stack, all.store.assign _ _ (steady.number _)⟩
  · exact all.fail _ _

omit steady in
/-- A named function is bound in its scope. -/
theorem AllIn.makeFunction
    (all : m.AllIn region p)
    {function : Function}
    (made : p (.function function m.scope)) :
    (m.makeFunction function).AllIn region p := by
  unfold Machine.makeFunction
  simp only
  split
  · exact all.give made
  · exact ⟨made, all.stack, all.store.declare _ _ made _⟩

omit steady in
/-- A name has a value with the property, or none. -/
theorem lookup_all
    (all : m.AllIn region p)
    (inside : region.scopes m.scope)
    (undefined : p .undefined)
    (name : String) :
    p (m.store.lookup m.scope name) := by
  unfold Store.lookup
  cases found : m.store.lookup? m.scope name with
  | none => exact undefined
  | some value => exact all.store.lookup? inside found

/-- To begin with an expression makes no value but a function, an array or an object. -/
theorem AllIn.evaluate
    (all : m.AllIn region p)
    (inside : region.scopes m.scope)
    (expr : Expr)
    (made : ∀ function, expr.function? = some function → p (.function function m.scope))
    (adds : m.store.Adds p (m.evaluate expr).store) :
    (m.evaluate expr).AllIn region p := by
  cases expr with
  | number position value => exact all.give (steady.number value)
  | text position value => exact all.give (steady.string _)
  | bool position value => exact all.give (steady.bool value)
  | undefined position => exact all.give steady.undefined
  | null position => exact all.give steady.null
  | name position name => exact all.give (lookup_all all inside steady.undefined name)
  | array position items => exact all.evaluateItems (by simp) items adds
  | object position fields => exact all.evaluateFields Table.all_empty fields adds
  | step position side op operand =>
    cases operand with
    | name namePosition name => exact all.stepName steady position side op name
    | _ => exact all.fail _ _
  | assign position target value =>
    cases target with
    | name namePosition name => exact all.enter value trivial
    | member subjectPosition subject key => exact all.enter subject trivial
    | index subjectPosition subject key => exact all.enter subject trivial
    | _ => exact all.fail _ _
  | function position name exported parameters body => exact all.makeFunction (made _ rfl)
  | _ => exact all.enter _ trivial

/-- To begin with a statement makes no value but the void one. -/
theorem AllIn.execute
    (all : m.AllIn region p)
    (inside : region.scopes m.scope)
    (stmt : Stmt) :
    (m.execute stmt).AllIn region p := by
  cases stmt with
  | expr position value => exact ⟨trivial, all.stack, all.store⟩
  | forLoop position start test update body =>
    exact ⟨trivial, List.forall_mem_cons.2 ⟨trivial, all.stack⟩, all.store.newChild inside⟩
  | returnNothing position => exact ⟨steady.void, all.stack, all.store⟩
  | debug position values => exact all.evaluateShown steady [] values
  | use position path => exact all.give steady.void
  | whileLoop position test body => exact all.enter test steady.void
  | branch position test consequent alternate => exact all.enter test trivial
  | returnValue position value => exact all.enter value trivial

/-- What a function of the library does to a store brings only values with the property there. -/
theorem AllIn.act
    (all : m.AllIn region p)
    (position : Option Position)
    {action : Action}
    (ofAction : action.All p)
    (adds : m.store.Adds p (m.act position action).store) :
    (m.act position action).AllIn region p := by
  cases action with
  | yield value => exact all.give ofAction
  | make items =>
    refine ⟨adds.array (m.store.size_newArray_lt _), all.stack,
      all.store.newArray fun item mem => ?_⟩
    exact ofAction item (by simpa using mem)
  | push ref items =>
    refine ⟨steady.number _, all.stack, all.store.modifyArray ref ?_⟩
    intro others each item mem
    rw [Array.mem_def, Array.toList_appendList, List.mem_append] at mem
    rcases mem with mem | mem
    · exact each item (Array.mem_def.2 mem)
    · exact ofAction item mem
  | pop ref last =>
    refine ⟨ofAction, all.stack, all.store.modifyArray ref ?_⟩
    intro others each item mem
    rw [Array.mem_def, Array.toList_pop] at mem
    exact each item (Array.mem_def.2 ((List.dropLast_sublist _).subset mem))
  | print line => exact ⟨steady.void, all.stack, all.store.writeLine line⟩
  | ask prompt request => exact ⟨ofAction, all.stack, all.store.write prompt⟩
  | apply callee arguments => exact ⟨ofAction, all.stack, all.store⟩
  | exit status => exact ⟨trivial, all.stack, all.store⟩

/-- A function of the library fails, or brings only values with the property into a store. -/
theorem AllIn.actOrFail
    (all : m.AllIn region p)
    (position : Option Position)
    {result : Except Fault.Cause Action}
    (gives : Gives (Action.All p) result)
    (adds : m.store.Adds p (m.actOrFail position result).store) :
    (m.actOrFail position result).AllIn region p := by
  cases result with
  | ok action => exact all.act steady position (gives action rfl) adds
  | error cause => exact all.fail position cause

omit steady in
/-- Arguments with the property are bound to the parameters of a call. -/
theorem all_bindArguments
    {store : Store}
    (all : store.AllIn region p)
    (scope : ScopeRef)
    (parameters : List Parameter)
    {arguments : List Value}
    (ofArguments : ∀ argument ∈ arguments, p argument) :
    (bindArguments store scope parameters arguments).AllIn region p := by
  induction parameters generalizing store arguments with
  | nil => cases arguments <;> exact all
  | cons parameter parameters ih =>
    cases arguments with
    | nil => exact all
    | cons argument arguments =>
      rw [List.forall_mem_cons] at ofArguments
      exact ih (all.declare scope parameter.name ofArguments.1 false) ofArguments.2

/-- Parameters without arguments are bound to values with the property. -/
theorem AllIn.bindParameters
    (all : m.AllIn region p)
    (call : Activation)
    (parameters : List Parameter) :
    (m.bindParameters call parameters).AllIn region p := by
  cases parameters with
  | nil => exact ⟨trivial, List.forall_mem_cons.2 ⟨trivial, all.stack⟩, all.store⟩
  | cons parameter parameters =>
    cases parameter with
    | required name =>
      exact ⟨trivial, all.stack, all.store.declare _ _ steady.undefined _⟩
    | optional name default =>
      exact ⟨trivial, List.forall_mem_cons.2 ⟨trivial, all.stack⟩, all.store⟩

/-- A call of a value with the property, with arguments that have it, keeps to it. -/
theorem AllIn.apply
    (all : m.AllIn region p)
    {callee : Value}
    (ofCallee : p callee)
    {arguments : List Value}
    (ofArguments : ∀ argument ∈ arguments, p argument)
    (position : Option Position)
    (adds : m.store.Adds p (m.apply callee arguments position).store) :
    (m.apply callee arguments position).AllIn region p := by
  cases callee with
  | function function captured =>
    have opened := all.store.newChild (steady.function function captured ofCallee)
    exact ⟨trivial, all.stack, all_bindArguments opened _ _ ofArguments⟩
  | native native =>
    exact all.actOrFail steady position
      (Native.gives_perform steady ofCallee ofArguments m.scope m.store) adds
  | method receiver method =>
    exact all.actOrFail steady position
      (Method.gives_perform steady method ((steady.method _ _).1 ofCallee) ofArguments all.store)
      adds
  | _ => exact all.fail _ _

/-- To go on with a value that has the property keeps to it. -/
theorem AllIn.resume
    (all : m.AllIn region p)
    {value : Value}
    (ofValue : p value)
    {frame : Frame}
    (ofFrame : frame.All p)
    (adds : m.store.Adds p (m.resume value frame).store) :
    (m.resume value frame).AllIn region p := by
  cases frame with
  | items done rest =>
    exact all.evaluateItems (List.forall_mem_cons.2 ⟨ofValue, ofFrame⟩) rest adds
  | fields done key rest => exact all.evaluateFields (ofFrame.insert key ofValue) rest adds
  | right position op operand => exact all.enter operand ofValue
  | binary position op left => exact all.giveOrFail position (Store.gives_binary steady _ _ _)
  | logical op operand =>
    simp only [Machine.resume]
    split
    · exact all.give ofValue
    · exact ⟨trivial, all.stack, all.store⟩
  | unary position op => exact all.giveOrFail position (Store.gives_unary steady _ _)
  | assignName name => exact ⟨ofValue, all.stack, all.store.assign _ _ ofValue⟩
  | assignMember position key expr => exact all.enter expr ⟨ofValue, steady.string key⟩
  | assignIndex position key expr => exact all.enter key ofValue
  | assignKey position subject expr => exact all.enter expr ⟨ofFrame, ofValue⟩
  | assignValue position subject key =>
    simp only [Machine.resume]
    split
    · exact ⟨ofValue, all.stack, all.store.put ofValue _⟩
    · exact all.fail _ _
  | declare flavour name => exact ⟨ofValue, all.stack, all.store.declare _ _ ofValue _⟩
  | callee position arguments =>
    exact all.evaluateArguments position ofValue (by simp) arguments
  | arguments position callee done rest =>
    exact all.evaluateArguments position ofFrame.1
      (List.forall_mem_cons.2 ⟨ofValue, ofFrame.2⟩) rest
  | member position key =>
    exact all.giveOrFail position (Store.gives_member steady all.store ofValue _)
  | index position key => exact all.enter key ofValue
  | key position subject =>
    exact all.giveOrFail position (Store.gives_member steady all.store ofFrame _)
  | typeof => exact all.give (steady.string _)
  | whileTest test body last =>
    simp only [Machine.resume]
    split
    · exact ⟨trivial, List.forall_mem_cons.2 ⟨trivial, all.stack⟩, all.store⟩
    · exact all.give ofFrame
  | whileBody test body => exact all.enter test ofValue
  | forStart loop => exact all.enter loop.test steady.void
  | forTest loop last =>
    simp only [Machine.resume]
    split
    · exact ⟨trivial, List.forall_mem_cons.2 ⟨trivial, all.stack⟩, all.store⟩
    · exact ⟨ofFrame, all.stack, all.store⟩
  | forBody loop => exact all.enter loop.update ofValue
  | forUpdate loop last => exact all.enter loop.test ofFrame
  | returnValue => exact ⟨ofValue, all.stack, all.store⟩
  | debug done rest => exact all.evaluateShown steady _ rest
  | sequence rest =>
    cases rest with
    | nil => exact all.give ofValue
    | cons stmt rest => exact ⟨trivial, all.stack, all.store⟩
  | parameter call name rest => exact ⟨trivial, all.stack, all.store.declare _ _ ofValue _⟩
  | call caller => exact ⟨steady.void, all.stack, all.store⟩
  | ternary consequent alternate => exact ⟨trivial, all.stack, all.store⟩
  | branch consequent alternate => exact ⟨trivial, all.stack, all.store⟩

omit steady in
/-- A return keeps to the property. -/
theorem AllIn.leave
    (all : m.AllIn region p)
    {value : Value}
    (ofValue : p value)
    (frame : Frame) :
    (m.leave value frame).AllIn region p := by
  cases frame <;> exact ⟨ofValue, all.stack, all.store⟩

/-- A step makes no value without a steady property, but for the function, the array and the object
that are made in it, and does not leave a region that the code at hand is run in. -/
theorem AllIn.step_of_adds
    (all : m.AllIn region p)
    (ofExpr : ∀ expr, m.control = .evaluate expr → region.scopes m.scope)
    (ofStmt : ∀ stmt, m.control = .execute stmt → region.scopes m.scope)
    (made : ∀ value, m.made? = some value → p value)
    (adds : m.store.Adds p m.step.store) :
    m.step.AllIn region p := by
  obtain ⟨control, scope, stack, store⟩ := m
  have ofControl := all.control
  cases control with
  | evaluate expr =>
    refine all.evaluate steady (ofExpr expr rfl) expr (fun function isFunction => made _ ?_) adds
    simp only [made?, isFunction, Option.map_some]
  | execute stmt => exact all.execute steady (ofStmt stmt rfl) stmt
  | run body => exact all.runBody body steady.void
  | give value =>
    cases stack with
    | nil => exact all
    | cons frame rest =>
      have ofStack := List.forall_mem_cons.1 all.stack
      have popped :
          ({ control := .give value, scope := scope, stack := rest, store := store } :
            Machine).AllIn region p :=
        ⟨ofControl, ofStack.2, all.store⟩
      exact popped.resume steady ofControl ofStack.1 adds
  | unwind value =>
    cases stack with
    | nil => exact all
    | cons frame rest =>
      have ofStack := List.forall_mem_cons.1 all.stack
      have popped :
          ({ control := .unwind value, scope := scope, stack := rest, store := store } :
            Machine).AllIn region p :=
        ⟨ofControl, ofStack.2, all.store⟩
      exact popped.leave ofControl frame
  | apply callee arguments position =>
    exact all.apply steady ofControl.1 ofControl.2 position adds
  | bind call parameters => exact all.bindParameters steady call parameters
  | await request position => exact all
  | failed fault => exact all
  | exited status => exact all

omit steady in
/-- A step makes no value without a lasting property, but for the function that is made in it, and
does not leave a region that the code at hand is run in. -/
theorem AllIn.step
    (lasting : Value.Lasting region p)
    (all : m.AllIn region p)
    (ofExpr : ∀ expr, m.control = .evaluate expr → region.scopes m.scope)
    (ofStmt : ∀ stmt, m.control = .execute stmt → region.scopes m.scope)
    (made : ∀ value, m.made? = some value → p value) :
    m.step.AllIn region p :=
  all.step_of_adds lasting.steady ofExpr ofStmt made
    { array := fun _ => (lasting.array _).2 (all.store.newArrays _ (Nat.le_refl _))
      object := fun _ => (lasting.object _).2 (all.store.newObjects _ (Nat.le_refl _)) }

/-! ## Answers -/

omit steady in
/-- An answer by itself changes nothing in the store. -/
theorem store_answer
    (m : Machine)
    (reply : Except String Value) :
    (m.answer reply).store = m.store := by
  obtain ⟨control, scope, stack, store⟩ := m
  cases control <;> cases reply <;> rfl

omit steady in
/-- A property goes over to a machine whose question has been answered in its store. -/
theorem AllIn.answer
    {m : Machine}
    (all : m.AllIn region p)
    {value : Value}
    (ofValue : p value) :
    (m.answer (.ok value)).AllIn region p := by
  obtain ⟨control, scope, stack, store⟩ := m
  cases control with
  | await request position => exact ⟨ofValue, all.stack, all.store⟩
  | _ => exact all

end Machine
end TinyScript
