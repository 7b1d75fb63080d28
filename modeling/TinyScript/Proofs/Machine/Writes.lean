import TinyScript.Proofs.Machine.Natives
import TinyScript.Proofs.Store.Growth
import TinyScript.Proofs.Store.Heap
import TinyScript.Proofs.Store.Keys

/-!
# What a step does to the arrays and objects

A step makes an array or an object, changes one that is there in one of three ways, or leaves all
of them as they are (`Writes.step`).  Runs that follow one another make a course, in which each
machine takes one step from where the one before it left the heap (`Course`).
-/

namespace TinyScript

namespace Store

theorem SameHeap.refl
    (store : Store) :
    store.SameHeap store :=
  ⟨rfl, rfl⟩

section Parts

variable {store later : Store} (same : later.SameHeap store)

include same

/-- Every array of a store with the same heap has the same items. -/
theorem SameHeap.array
    (ref : ArrayRef) :
    later.array ref = store.array ref := by
  rw [Store.array, Store.array, same.arrays]

/-- Every object of a store with the same heap has the same properties. -/
theorem SameHeap.object
    (ref : ObjectRef) :
    later.object ref = store.object ref := by
  rw [Store.object, Store.object, same.objects]

end Parts

/-- Assignments to names change no array and no object. -/
theorem sameHeap_assign
    (store : Store)
    (scope : ScopeRef)
    (name : String)
    (value : Value) :
    (store.assign scope name value).SameHeap store := by
  unfold Store.assign
  split
  · exact ⟨rfl, rfl⟩
  · split <;> exact ⟨rfl, rfl⟩

end Store

/-! ## Which functions change arrays -/

/-- An action changes no array that is there already. -/
def Action.Makes : Action → Prop
  | .push _ _ | .pop _ _ => False
  | _ => True

/-- A function of the library makes something or gives data. -/
theorem Native.makes_perform
    (native : Native)
    (arguments : List Value)
    (scope : ScopeRef)
    (store : Store) :
    Gives Action.Makes (native.perform arguments scope store) := by
  intro action ok
  have ran : native.run arguments scope store = .ok action := by
    unfold perform at ok
    split at ok
    · exact ok
    · split at ok
      · exact ok
      · cases ok
  cases native with
  | length | exit | math | min | max =>
    obtain ⟨value, _, given⟩ := exists_of_bind_eq_ok ran
    cases given
    trivial
  | pow =>
    obtain ⟨base, _, given⟩ := exists_of_bind_eq_ok ran
    obtain ⟨exponent, _, given⟩ := exists_of_bind_eq_ok given
    cases given
    trivial
  | _ =>
    cases ran
    trivial

namespace Method

variable {method : Method} {receiver : Value} {arguments : List Value} {store : Store}

/-- A method of a text makes an array or gives data. -/
theorem makes_runText
    (method : Method)
    (text : String)
    (arguments : List Value) :
    Gives Action.Makes (method.runText text arguments) := by
  intro action ok
  cases method with
  | charAt | split =>
    obtain ⟨value, _, ok⟩ := exists_of_bind_eq_ok ok
    obtain ⟨argument, _, ok⟩ := exists_of_bind_eq_ok ok
    cases ok
    trivial
  | substring =>
    match arguments with
    | [] => cases ok
    | [start] =>
      obtain ⟨first, _, ok⟩ := exists_of_bind_eq_ok ok
      obtain ⟨piece, _, ok⟩ := exists_of_bind_eq_ok ok
      cases ok
      trivial
    | [start, stop] =>
      obtain ⟨first, _, ok⟩ := exists_of_bind_eq_ok ok
      obtain ⟨last, _, ok⟩ := exists_of_bind_eq_ok ok
      obtain ⟨piece, _, ok⟩ := exists_of_bind_eq_ok ok
      cases ok
      trivial
    | first :: second :: third :: rest => cases ok
  | _ =>
    cases ok
    trivial

/-- A function of an array changes no other array, and only `push` and `pop` change one at all. -/
theorem eq_of_runArray
    {ref : ArrayRef}
    {action : Action}
    (ok : method.runArray ref arguments store = .ok action) :
    action.Makes ∨ method = .push ∧ action = .push ref arguments ∨
      method = .pop ∧ ∃ last, action = .pop ref last := by
  cases method with
  | push =>
    simp only [runArray] at ok
    split at ok
    · cases ok
    · cases ok
      exact .inr (.inl ⟨rfl, rfl⟩)
  | pop =>
    simp only [runArray] at ok
    split at ok
    · cases ok
    · cases ok
      exact .inr (.inr ⟨rfl, _, rfl⟩)
  | join =>
    obtain ⟨value, _, ok⟩ := exists_of_bind_eq_ok ok
    obtain ⟨separator, _, ok⟩ := exists_of_bind_eq_ok ok
    cases ok
    exact .inl trivial
  | includes =>
    obtain ⟨needle, _, ok⟩ := exists_of_bind_eq_ok ok
    cases ok
    exact .inl trivial
  | _ =>
    cases ok
    exact .inl trivial

/-- Items are only added to an array by its `push`, and one is only taken off by its `pop`. -/
theorem eq_of_perform
    {action : Action}
    (ok : method.perform receiver arguments store = .ok action) :
    action.Makes ∨ ∃ ref, receiver = .array ref ∧
      (method = .push ∧ action = .push ref arguments ∨
        method = .pop ∧ ∃ last, action = .pop ref last) := by
  have shown : Gives Action.Makes (runDisplay receiver arguments store) := by
    intro action ok
    unfold runDisplay at ok
    split at ok
    · cases ok
      trivial
    · cases ok
  cases receiver with
  | string text => exact .inl (makes_runText method text arguments action ok)
  | array ref => exact (eq_of_runArray ok).imp_right fun changes => ⟨ref, rfl, changes⟩
  | object ref =>
    cases ok
    cases method <;> exact .inl trivial
  | function function captured =>
    simp only [perform, runFunction] at ok
    split at ok
    · cases ok
      exact .inl trivial
    · cases ok
  | _ => exact .inl (shown action ok)

end Method

/-! ## Places -/

/-- The array or object that a place is a part of. -/
def Place.owner : Place → Value
  | .item ref _ => .array ref
  | .property ref _ => .object ref

/-- An assignment writes a part of the value that it names. -/
theorem Store.eq_owner_of_place
    {store : Store}
    {subject key : Value}
    {place : Place}
    (placed : store.place subject key = .ok place) :
    subject = place.owner := by
  cases subject with
  | array ref =>
    obtain ⟨number, index, -, -, -, rfl⟩ := place_array_iff.1 placed
    rfl
  | object ref =>
    obtain ⟨text, -, given⟩ := exists_of_bind_eq_ok placed
    cases given
    rfl
  | _ => cases placed

namespace Machine

/-- What the next step of a machine may do to the arrays and objects of its store. -/
inductive Writes (m : Machine) (later : Store) : Prop
  | keep : later.SameHeap m.store → Writes m later
  | makeArray (items : Array Value) : later.SameHeap (m.store.newArray items).2 → Writes m later
  | makeObject (fields : Table Value) : later.SameHeap (m.store.newObject fields).2 → Writes m later
  | push {ref items position} :
      m.control = .apply (.method (.array ref) .push) items position →
      later.SameHeap (m.store.modifyArray ref (· ++ items)) → Writes m later
  | pop {ref arguments position} :
      m.control = .apply (.method (.array ref) .pop) arguments position →
      later.SameHeap (m.store.modifyArray ref Array.pop) → Writes m later
  | put {value position subject key rest} (place : Place) :
      m.control = .give value →
      m.stack = .assignValue position subject key :: rest →
      m.store.place subject key = .ok place →
      later.SameHeap (m.store.put value place) → Writes m later

/-! ## Steps that keep arrays and objects -/

variable (m : Machine)

/-- The result of a computation is not written to an array or object. -/
theorem sameHeap_giveOrFail
    (position : Position)
    (result : Except Fault.Cause Value) :
    (m.giveOrFail position result).store.SameHeap m.store := by
  cases result <;> exact ⟨rfl, rfl⟩

/-- Going on with the arguments of a call changes no array and no object. -/
theorem sameHeap_evaluateArguments
    (position : Position)
    (callee : Value)
    (done : List Value)
    (arguments : List Expr) :
    (m.evaluateArguments position callee done arguments).store.SameHeap m.store := by
  cases arguments <;> exact ⟨rfl, rfl⟩

/-- Going on with a `debug` statement changes no array and no object. -/
theorem sameHeap_evaluateShown
    (done : List String)
    (values : List Expr) :
    (m.evaluateShown done values).store.SameHeap m.store := by
  cases values <;> exact ⟨rfl, rfl⟩

/-- An array is made when all its items are there. -/
theorem sameHeap_evaluateItems
    (done : List Value)
    (items : List Expr) :
    (m.evaluateItems done items).store.SameHeap m.store ∨
      (m.evaluateItems done items).store.SameHeap (m.store.newArray done.reverse.toArray).2 := by
  cases items with
  | nil => exact .inr ⟨rfl, rfl⟩
  | cons item rest => exact .inl ⟨rfl, rfl⟩

/-- An object is made when all its properties are there. -/
theorem sameHeap_evaluateFields
    (done : Table Value)
    (fields : List Field) :
    (m.evaluateFields done fields).store.SameHeap m.store ∨
      (m.evaluateFields done fields).store.SameHeap (m.store.newObject done).2 := by
  match fields with
  | [] => exact .inr ⟨rfl, rfl⟩
  | .mk key value :: rest => exact .inl ⟨rfl, rfl⟩

/-- Arguments are bound in scopes, and not in arrays or objects. -/
theorem sameHeap_bindArguments
    (scope : ScopeRef)
    (parameters : List Parameter)
    (arguments : List Value)
    (store : Store) :
    (bindArguments store scope parameters arguments).SameHeap store :=
  Store.bindArguments_preserves (P := (·.SameHeap store))
    (fun _ _ _ same => ⟨same.arrays, same.objects⟩) (.refl store) parameters arguments

/-- Binding a parameter changes no array and no object. -/
theorem sameHeap_bindParameters
    (call : Activation)
    (parameters : List Parameter) :
    (m.bindParameters call parameters).store.SameHeap m.store := by
  match parameters with
  | [] => exact ⟨rfl, rfl⟩
  | .required name :: rest => exact ⟨rfl, rfl⟩
  | .optional name default :: rest => exact ⟨rfl, rfl⟩

/-! ## Steps that change them -/

namespace Writes

variable {m : Machine}

/-- To begin with an expression writes at most an array or object that it makes. -/
theorem evaluate
    (expr : Expr) :
    m.Writes (m.evaluate expr).store := by
  cases expr with
  | array position items =>
    rcases m.sameHeap_evaluateItems [] items with same | made
    · exact .keep same
    · exact .makeArray #[] made
  | object position fields =>
    rcases m.sameHeap_evaluateFields .empty fields with same | made
    · exact .keep same
    · exact .makeObject .empty made
  | step position side op operand =>
    cases operand with
    | name namePosition name =>
      simp only [Machine.evaluate, stepName]
      split
      · exact .keep (m.store.sameHeap_assign m.scope name _)
      · exact .keep ⟨rfl, rfl⟩
    | _ => exact .keep ⟨rfl, rfl⟩
  | assign position target value => cases target <;> exact .keep ⟨rfl, rfl⟩
  | function position name exported parameters body => cases name <;> exact .keep ⟨rfl, rfl⟩
  | _ => exact .keep ⟨rfl, rfl⟩

/-- To begin with a statement writes nothing to arrays and objects. -/
theorem execute
    (statement : Stmt) :
    m.Writes (m.execute statement).store := by
  cases statement with
  | debug position values => exact .keep (m.sameHeap_evaluateShown [] values)
  | _ => exact .keep ⟨rfl, rfl⟩

/-- An action makes an array, or leaves all arrays and objects as they are, unless it adds items to
an array or takes one off. -/
theorem act
    {action : Action}
    (makes : action.Makes)
    (position : Option Position) :
    m.Writes (m.act position action).store := by
  cases action with
  | make items => exact .makeArray items.toArray (.refl _)
  | push ref items => exact makes.elim
  | pop ref last => exact makes.elim
  | _ => exact .keep ⟨rfl, rfl⟩

/-- A call writes only what a function of the library puts, adds or takes away. -/
theorem apply
    {callee : Value}
    {arguments : List Value}
    {position : Option Position}
    (atHand : m.control = .apply callee arguments position) :
    m.Writes (m.apply callee arguments position).store := by
  cases callee with
  | function function captured =>
    have bound := sameHeap_bindArguments (m.store.newChild captured).1 function.parameters arguments
      (m.store.newChild captured).2
    exact .keep ⟨bound.arrays, bound.objects⟩
  | native native =>
    simp only [Machine.apply]
    cases performs : native.perform arguments m.scope m.store with
    | error cause => exact .keep ⟨rfl, rfl⟩
    | ok action =>
      exact act (native.makes_perform arguments m.scope m.store action performs) position
  | method receiver method =>
    simp only [Machine.apply]
    cases performs : method.perform receiver arguments m.store with
    | error cause => exact .keep ⟨rfl, rfl⟩
    | ok action =>
      rcases Method.eq_of_perform performs with makes | ⟨ref, rfl, ⟨rfl, rfl⟩ | ⟨rfl, last, rfl⟩⟩
      · exact act makes position
      · exact .push atHand (.refl _)
      · exact .pop atHand (.refl _)
  | _ => exact .keep ⟨rfl, rfl⟩

/-- The frame that a value is given to lies on the stack of `m`, and no more on that of the
machine that goes on with it. -/
theorem resume
    {value : Value}
    (gives : m.control = .give value)
    {frame : Frame}
    {rest : List Frame}
    (atHand : m.stack = frame :: rest) :
    m.Writes (({ m with stack := rest } : Machine).resume value frame).store := by
  let popped : Machine := { m with stack := rest }
  cases frame with
  | items done items =>
    rcases popped.sameHeap_evaluateItems (value :: done) items with same | made
    · exact .keep same
    · exact .makeArray _ made
  | fields done key fields =>
    rcases popped.sameHeap_evaluateFields (done.insert key value) fields with same | made
    · exact .keep same
    · exact .makeObject _ made
  | binary position op left => exact .keep (popped.sameHeap_giveOrFail position _)
  | logical op operand =>
    simp only [Machine.resume]
    split <;> exact .keep ⟨rfl, rfl⟩
  | unary position op => exact .keep (popped.sameHeap_giveOrFail position _)
  | assignName name => exact .keep (m.store.sameHeap_assign m.scope name value)
  | assignValue position subject key =>
    simp only [Machine.resume]
    cases placed : m.store.place subject key with
    | ok place => exact .put place gives atHand placed (.refl _)
    | error cause => exact .keep ⟨rfl, rfl⟩
  | callee position arguments =>
    exact .keep (popped.sameHeap_evaluateArguments position value [] arguments)
  | arguments position callee done rest =>
    exact .keep (popped.sameHeap_evaluateArguments position callee (value :: done) rest)
  | member position key => exact .keep (popped.sameHeap_giveOrFail position _)
  | key position subject => exact .keep (popped.sameHeap_giveOrFail position _)
  | whileTest test body last =>
    simp only [Machine.resume]
    split <;> exact .keep ⟨rfl, rfl⟩
  | forTest loop last =>
    simp only [Machine.resume]
    split <;> exact .keep ⟨rfl, rfl⟩
  | debug done rest => exact .keep (popped.sameHeap_evaluateShown _ rest)
  | sequence rest => cases rest <;> exact .keep ⟨rfl, rfl⟩
  | _ => exact .keep ⟨rfl, rfl⟩

/-- A step does nothing else to the arrays and objects. -/
theorem step
    (m : Machine) :
    m.Writes m.step.store := by
  unfold Machine.step
  cases atHand : m.control with
  | evaluate expr => exact evaluate expr
  | execute statement => exact execute statement
  | run body => cases body <;> exact .keep ⟨rfl, rfl⟩
  | give value =>
    cases onStack : m.stack with
    | nil => exact .keep (.refl _)
    | cons frame rest =>
      have goesOn := resume atHand onStack
      rw [atHand] at goesOn
      exact goesOn
  | unwind value =>
    cases m.stack with
    | nil => exact .keep (.refl _)
    | cons frame rest => cases frame <;> exact .keep ⟨rfl, rfl⟩
  | apply callee arguments position => exact apply atHand
  | bind call parameters => exact .keep (m.sameHeap_bindParameters call parameters)
  | await request position => exact .keep (.refl _)
  | failed fault => exact .keep (.refl _)
  | exited status => exact .keep (.refl _)

variable {later : Store}

/-- Arrays and objects are never lost. -/
theorem size_le
    (writes : m.Writes later) :
    m.store.arrays.size ≤ later.arrays.size ∧ m.store.objects.size ≤ later.objects.size := by
  cases writes with
  | keep same | push _ same | pop _ same =>
    simp [same.arrays, same.objects, Store.modifyArray]
  | makeArray _ same | makeObject _ same =>
    simp [same.arrays, same.objects, Store.newArray, Store.newObject]
  | put place _ _ _ same =>
    cases place <;>
      simp [same.arrays, same.objects, Store.put, Store.modifyArray, Store.setProperty]

end Writes

/-! ## Courses -/

variable {State : Type} {m : Machine}

/-- Answers to questions are no writes. -/
theorem Installed.writes_advance
    (installed : m.Installed)
    (host : Host State)
    (state : State) :
    m.Writes (m.advance host state).1.store := by
  rcases installed.store_advance host state with steps | same
  · rw [steps]
    exact .step m
  · rw [same]
    exact .keep (.refl _)

/-- A machine that asks nothing takes a step. -/
theorem advance_eq_step
    (asks : m.request? = none)
    (host : Host State)
    (state : State) :
    (m.advance host state).1 = m.step := by
  unfold Machine.advance
  rw [asks]

/-- The machines that a run goes through before it stops. -/
def passed (host : Host State) : (limit : Nat) → Machine → State → List Machine
  | 0, _, _ => []
  | limit + 1, m, state =>
    if m.outcome?.isSome then []
    else
      let (next, state) := m.advance host state
      m :: passed host limit next state

/-- The machines that runs have gone through, the earliest first, on the way from one machine to
another.  Whatever a run has come to, another one may begin that finds the same arrays and objects,
as the next piece of source does in a session. -/
inductive Course (host : Host State) (start : Machine) : List Machine → Machine → Prop
  | start : Course host start [] start
  | advance {before m} (state : State) :
      Course host start before m → Course host start (before ++ [m]) (m.advance host state).1
  | turn {before m next} :
      Course host start before m → next.store.SameHeap m.store → next.Installed →
      Course host start before next

namespace Course

variable {host : Host State} {start m : Machine} {before : List Machine}

/-- A course goes on with a run. -/
theorem run
    (course : Course host start before m)
    (limit : Nat)
    (state : State) :
    Course host start (before ++ m.passed host limit state) (m.run host limit state).1 := by
  induction limit generalizing before m state with
  | zero => simpa [passed] using course
  | succ limit ih =>
    simp only [passed, Machine.run]
    split
    · simpa using course
    · have goesOn := ih (course.advance state) (m.advance host state).2
      rwa [List.append_assoc] at goesOn

/-- No course of runs brings in a function of the surrounding program. -/
theorem installed
    (begins : start.Installed)
    (course : Course host start before m) :
    m.Installed := by
  induction course with
  | start => exact begins
  | advance state _ ih => exact ih.advance host state
  | turn _ _ installed _ => exact installed

/-- What is there at the beginning of a course stays there. -/
theorem size_le
    (begins : start.Installed)
    (course : Course host start before m) :
    start.store.arrays.size ≤ m.store.arrays.size ∧
      start.store.objects.size ≤ m.store.objects.size := by
  induction course with
  | start => exact ⟨Nat.le_refl _, Nat.le_refl _⟩
  | advance state course ih =>
    have grown := ((course.installed begins).writes_advance host state).size_le
    exact ⟨Nat.le_trans ih.1 grown.1, Nat.le_trans ih.2 grown.2⟩
  | turn _ same _ ih => rwa [same.arrays, same.objects]

end Course
end Machine
end TinyScript
