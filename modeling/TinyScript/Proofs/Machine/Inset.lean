import TinyScript.Proofs.Machine.Keeping
import TinyScript.Proofs.Machine.Moments
import TinyScript.Proofs.Machine.Sequence

/-!
# Evaluation in an empty scope

An expression that declares nothing, makes no function and assigns only to names that are bound
evaluates in an empty scope as it does in the one around it.  The two evaluations differ in the
scope at hand while no function runs, and otherwise in the scope that a call goes back to.
-/

namespace TinyScript

/-! ## A scope without names -/

/-- A scope has no names of its own and lies directly inside another one. -/
structure Store.Inset (store : Store) (outer inner : ScopeRef) : Prop where
  ancestors : (store.scope inner).ancestors = store.chain outer
  bindings : (store.scope inner).bindings = .empty

namespace Store.Inset

variable {store : Store} {outer inner : ScopeRef} (inset : store.Inset outer inner)

include inset

/-- The inner scope of an inset has one more in its chain than the outer one. -/
theorem chain :
    store.chain inner = inner :: store.chain outer := by
  rw [Store.chain, inset.ancestors]

/-- An empty scope binds no name. -/
theorem binding?
    (name : String) :
    store.binding? inner name = none := by
  rw [Store.binding?, inset.bindings, Table.find?_empty]

/-- A search that begins in the empty scope goes on to the one outside it. -/
theorem lookup?
    (name : String) :
    store.lookup? inner name = store.lookup? outer name := by
  rw [Store.lookup?, inset.chain, List.findSome?_cons, inset.binding? name]
  rfl

/-- A name has the same value in the empty scope as in the one outside it. -/
theorem lookup
    (name : String) :
    store.lookup inner name = store.lookup outer name := by
  rw [Store.lookup, inset.lookup?, Store.lookup]

/-- A name that is bound at all is bound by a scope outside the empty one. -/
theorem binder?
    (name : String) :
    store.binder? inner name = store.binder? outer name := by
  rw [Store.binder?, inset.chain, List.find?_cons, inset.binding? name]
  rfl

/-- A name that is bound around the empty scope is given its value there. -/
theorem assign
    {name : String}
    (bound : (store.lookup? outer name).isSome)
    (value : Value) :
    store.assign inner name value = store.assign outer name value := by
  rw [isSome_lookup?, Option.isSome_iff_exists] at bound
  obtain ⟨binder, binds⟩ := bound
  rw [Store.assign, Store.assign, inset.binder?, binds]

end Store.Inset

/-! ## Expressions without a scope of their own -/

/-- An expression, its parts apart, declares no name, makes no function and assigns only to some
names. -/
def Expr.isScopeless (bound : String → Bool) : Expr → Bool
  | .assign _ (.name _ assigned) _ => bound assigned
  | .step _ _ _ (.name _ stepped) => bound stepped
  | .declare _ _ _ _ => false
  | .function _ _ _ _ _ => false
  | _ => true

/-- The layout in which only expressions of this kind run in one scope. -/
def Layout.scopeless (home : ScopeRef) (bound : String → Bool) : Layout where
  region := .whole
  Runs store scope node :=
    home.index < store.scopes.size ∧ scope.index < store.scopes.size ∧
      (scope = home → (∃ expr, node = .expr expr) ∧
        node.everywhere (Expr.isScopeless bound) = true)
  within _ := trivial
  grows grown runs := ⟨grown.known runs.1, grown.known runs.2.1, runs.2.2⟩
  part := by
    rintro store scope whole part ⟨homeKnown, known, atHome⟩ isPart
    refine ⟨homeKnown, known, fun isHome => ?_⟩
    obtain ⟨⟨expr, rfl⟩, scopeless⟩ := atHome isHome
    refine ⟨?_, Node.everywhere_part scopeless isPart⟩
    cases isPart with
    | function => cases Node.passes_of_everywhere scopeless
    | _ => exact ⟨_, rfl⟩
  inside := by
    rintro store scope whole part ⟨homeKnown, known, _⟩ _
    refine ⟨(store.extends_newChild scope).known homeKnown, store.newChild_known scope, ?_⟩
    rintro rfl
    exact absurd homeKnown (Nat.lt_irrefl _)

/-! ## Two evaluations -/

/-- A frame waits for a part of an expression. -/
def Frame.isLocal : Frame → Bool
  | .items _ _ | .fields _ _ _ | .right _ _ _ | .binary _ _ _ | .logical _ _ | .unary _ _
  | .assignName _ | .assignMember _ _ _ | .assignIndex _ _ _ | .assignKey _ _ _
  | .assignValue _ _ _ | .callee _ _ | .arguments _ _ _ _ | .member _ _ | .index _ _ | .key _ _
  | .ternary _ _ | .typeof => true
  | _ => false

/-- An expression is evaluated, or what it comes to. -/
def Control.isLocal : Control → Bool
  | .evaluate _ | .give _ | .apply _ _ _ | .await _ _ | .failed _ | .exited _ => true
  | _ => false

namespace Machine

/-- The same work in another scope. -/
def within (m : Machine) (scope : ScopeRef) : Machine :=
  { m with scope := scope }

/-- Two evaluations of an expression are equally far: they evaluate one part of it, each in its own
scope, or they are in the same call, which goes back to these scopes. -/
inductive InStep (outer inner : ScopeRef) : Machine → Machine → Prop
  | here (m : Machine)
      (control : m.control.isLocal = true)
      (stack : m.stack.all Frame.isLocal = true) :
      InStep outer inner (m.within outer) (m.within inner)
  | bind (call : Activation) (parameters : List Parameter) (scope other : ScopeRef)
      {stack : List Frame}
      (frames : stack.all Frame.isLocal = true)
      (store : Store) :
      InStep outer inner
        { control := .bind { call with caller := outer } parameters, scope := scope,
          stack := stack, store := store }
        { control := .bind { call with caller := inner } parameters, scope := other,
          stack := stack, store := store }
  | default (m : Machine) (call : Activation) (name : String) (rest : List Parameter)
      {stack : List Frame}
      {origin : ScopeRef}
      (contained : m.Contained False origin)
      (frames : stack.all Frame.isLocal = true) :
      InStep outer inner
        (m.under (.parameter { call with caller := outer } name rest :: stack))
        (m.under (.parameter { call with caller := inner } name rest :: stack))
  | body (m : Machine)
      {stack : List Frame}
      (frames : stack.all Frame.isLocal = true) :
      InStep outer inner (m.under (.call outer :: stack)) (m.under (.call inner :: stack))

/-! ## Steps in the two scopes -/

namespace InStep

section Here

variable {outer inner : ScopeRef} {m : Machine} (stack : m.stack.all Frame.isLocal = true)

include stack

/-- The two machines fail together. -/
theorem giveOrFail
    (position : Position)
    (result : Except Fault.Cause Value) :
    InStep outer inner ((m.within outer).giveOrFail position result)
      ((m.within inner).giveOrFail position result) := by
  cases result with
  | ok value => exact .here (m.give value) rfl stack
  | error cause => exact .here (m.fail (some position) cause) rfl stack

/-- The same item of an array comes next, in the scope of each machine. -/
theorem evaluateItems
    (done : List Value)
    (items : List Expr) :
    InStep outer inner ((m.within outer).evaluateItems done items)
      ((m.within inner).evaluateItems done items) := by
  cases items with
  | nil => exact .here (m.evaluateItems done []) rfl stack
  | cons item items => exact .here (m.evaluateItems done (item :: items)) rfl stack

/-- The same property of an object comes next, in the scope of each machine. -/
theorem evaluateFields
    (done : Table Value)
    (fields : List Field) :
    InStep outer inner ((m.within outer).evaluateFields done fields)
      ((m.within inner).evaluateFields done fields) := by
  match fields with
  | [] => exact .here (m.evaluateFields done []) rfl stack
  | .mk key value :: rest => exact .here (m.evaluateFields done (.mk key value :: rest)) rfl stack

/-- The same argument of a call comes next, in the scope of each machine. -/
theorem evaluateArguments
    (position : Position)
    (callee : Value)
    (done : List Value)
    (arguments : List Expr) :
    InStep outer inner ((m.within outer).evaluateArguments position callee done arguments)
      ((m.within inner).evaluateArguments position callee done arguments) := by
  cases arguments with
  | nil => exact .here (m.evaluateArguments position callee done []) rfl stack
  | cons argument arguments =>
    exact .here (m.evaluateArguments position callee done (argument :: arguments)) rfl stack

/-- A function of the library does the same in both scopes. -/
theorem actOrFail
    (position : Option Position)
    (result : Except Fault.Cause Action) :
    InStep outer inner ((m.within outer).actOrFail position result)
      ((m.within inner).actOrFail position result) := by
  cases result with
  | ok action =>
    have same : ∀ scope, (m.within scope).act position action =
        (m.act position action).within scope := by
      intro scope
      cases action <;> rfl
    simp only [Machine.actOrFail, same]
    refine .here (m.act position action) ?_ ?_ <;> cases action <;> first | rfl | exact stack
  | error cause => exact .here (m.fail position cause) rfl stack

/-- Where a function of the library is called does not matter. -/
theorem apply
    (installed : m.Installed)
    {callee : Value}
    {arguments : List Value}
    {position : Option Position}
    (atHand : m.control = .apply callee arguments position) :
    InStep outer inner ((m.within outer).apply callee arguments position)
      ((m.within inner).apply callee arguments position) := by
  cases callee with
  | function function captured =>
    exact .bind
      { scope := (m.store.newChild captured).1, captured := captured, caller := outer,
        body := function.body }
      _ outer inner stack _
  | native native =>
    have ofControl := installed.control
    rw [atHand] at ofControl
    have sameScope :
        native.perform arguments outer m.store = native.perform arguments inner m.store := by
      cases native with
      | host name arity => exact ofControl.1.elim
      | _ => rfl
    have same : ∀ scope, (m.within scope).apply (.native native) arguments position =
        (m.within scope).actOrFail position (native.perform arguments scope m.store) :=
      fun _ => rfl
    rw [same, same, sameScope]
    exact actOrFail stack position _
  | method receiver method => exact actOrFail stack position _
  | _ => exact .here (m.fail position _) rfl stack

section Names

variable (inset : m.store.Inset outer inner)

include inset

/-- An expression that makes nothing in its scope, and whose names are all bound outside, is
evaluated alike in an empty scope. -/
theorem evaluate
    {bound : String → Bool}
    (names : ∀ name, bound name = true → (m.store.lookup? outer name).isSome)
    {expr : Expr}
    (scopeless : expr.isScopeless bound = true) :
    InStep outer inner ((m.within outer).evaluate expr) ((m.within inner).evaluate expr) := by
  cases expr with
  | number position value => exact .here (m.give _) rfl stack
  | text position value =>
    have same : (m.within inner).meaning? = (m.within outer).meaning? := by
      funext name
      exact congrArg _ (inset.lookup? name)
    simp only [Machine.evaluate, same]
    exact .here (m.give _) rfl stack
  | bool position value => exact .here (m.give _) rfl stack
  | undefined position => exact .here (m.give _) rfl stack
  | null position => exact .here (m.give _) rfl stack
  | name position name =>
    have same : (m.within inner).evaluate (.name position name) =
        (m.give (m.store.lookup outer name)).within inner :=
      congrArg (fun value => (m.give value).within inner) (inset.lookup name)
    rw [same]
    exact .here (m.give (m.store.lookup outer name)) rfl stack
  | array position items => exact evaluateItems stack [] items
  | object position fields => exact evaluateFields stack .empty fields
  | step position side op operand =>
    cases operand with
    | name namePosition name =>
      simp only [Machine.evaluate, stepName, within, inset.lookup,
        inset.assign (names name scopeless)]
      cases m.store.lookup outer name with
      | number old =>
        let assigned (given assigned : Float) : Machine :=
          { m with
            control := .give (.number given)
            store := m.store.assign outer name (.number assigned) }
        exact .here (assigned _ _) rfl stack
      | _ => exact .here (m.fail (some position) (.stepValue op name)) rfl stack
    | _ => exact .here (m.fail _ _) rfl stack
  | assign position target value =>
    cases target with
    | name namePosition name => exact .here (m.enter value _) rfl stack
    | member subjectPosition subject key => exact .here (m.enter subject _) rfl stack
    | index subjectPosition subject key => exact .here (m.enter subject _) rfl stack
    | _ => exact .here (m.fail _ _) rfl stack
  | declare position flavour name value => cases scopeless
  | function position name exported parameters body => cases scopeless
  | _ => exact .here (m.enter _ _) rfl stack

/-- A part of an expression has been evaluated, above the frame that waits for its value. -/
theorem resume
    (value : Value)
    {frame : Frame}
    (isLocal : frame.isLocal = true)
    (bound : ∀ name, frame = .assignName name → (m.store.lookup? outer name).isSome) :
    InStep outer inner ((m.within outer).resume value frame)
      ((m.within inner).resume value frame) := by
  cases frame with
  | items done rest => exact evaluateItems stack _ rest
  | fields done key rest => exact evaluateFields stack _ rest
  | right position op operand => exact .here (m.enter operand _) rfl stack
  | binary position op left => exact giveOrFail stack position _
  | logical op operand =>
    simp only [Machine.resume, within]
    by_cases decided : m.store.isTruthy value == (op == .either)
    · simp only [decided, if_true]
      exact .here (m.give value) rfl stack
    · simp only [decided]
      exact .here { m with control := .evaluate operand } rfl stack
  | unary position op => exact giveOrFail stack position _
  | assignName name =>
    let assigned : Machine :=
      { m with control := .give value, store := m.store.assign outer name value }
    simp only [Machine.resume, within, inset.assign (bound name rfl)]
    exact .here assigned rfl stack
  | assignMember position key value => exact .here (m.enter value _) rfl stack
  | assignIndex position key value => exact .here (m.enter key _) rfl stack
  | assignKey position subject value => exact .here (m.enter value _) rfl stack
  | assignValue position subject key =>
    simp only [Machine.resume, within]
    cases m.store.place subject key with
    | ok place =>
      exact .here { m with control := .give value, store := m.store.put value place } rfl stack
    | error cause => exact .here (m.fail (some position) cause) rfl stack
  | callee position arguments => exact evaluateArguments stack position value [] arguments
  | arguments position callee done rest =>
    exact evaluateArguments stack position callee (value :: done) rest
  | member position key => exact giveOrFail stack position _
  | index position key => exact .here (m.enter key _) rfl stack
  | key position subject => exact giveOrFail stack position _
  | ternary consequent alternate => exact .here { m with control := .evaluate _ } rfl stack
  | typeof => exact .here (m.give _) rfl stack
  | _ => cases isLocal

end Names
end Here

/-! ## Runs in the two scopes -/

variable {outer inner : ScopeRef} {m other : Machine}

/-- Two machines that are in step have one store. -/
theorem store
    (inStep : InStep outer inner m other) :
    other.store = m.store := by
  cases inStep <;> rfl

/-- Two evaluations are over at once, and in the same way. -/
theorem outcome?
    (inStep : InStep outer inner m other) :
    other.outcome? = m.outcome? := by
  have above : ∀ (w : Machine) (first second : Frame) (rest : List Frame),
      (w.under (second :: rest)).outcome? = (w.under (first :: rest)).outcome? := by
    intro w first second rest
    obtain ⟨control, scope, stack, store⟩ := w
    cases control <;> cases stack <;> rfl
  cases inStep with
  | default w call name rest contained frames => exact above w _ _ _
  | body w frames => exact above w _ _ _
  | _ => rfl

section Steps

variable {State : Type} (host : Host State) (state : State)

/-- At its end a call goes back to the scope that it was made from, each to its own. -/
theorem advance_body
    (w : Machine)
    {stack : List Frame}
    (frames : stack.all Frame.isLocal = true) :
    let first := (w.under (.call outer :: stack)).advance host state
    let second := (w.under (.call inner :: stack)).advance host state
    InStep outer inner first.1 second.1 ∧ second.2 = first.2 := by
  intro first second
  cases ends : w.outcome? with
  | none =>
    simp only [first, second, advance_under _ host ends]
    exact ⟨.body _ frames, trivial⟩
  | some outcome =>
    obtain ⟨control, scope, above, store⟩ := w
    let back (value : Value) : Machine :=
      { control := .give value, scope := scope, stack := stack, store := store }
    cases control with
    | give value =>
      cases above with
      | nil => exact ⟨.here (back .void) rfl frames, rfl⟩
      | cons frame above => cases ends
    | unwind value =>
      cases above with
      | nil => exact ⟨.here (back value) rfl frames, rfl⟩
      | cons frame above => cases ends
    | failed fault => exact ⟨.body _ frames, rfl⟩
    | exited status => exact ⟨.body _ frames, rfl⟩
    | _ => cases above <;> cases ends

/-- A default has no `return`, so it ends with a value that the parameter is bound to. -/
theorem advance_default
    (w : Machine)
    (call : Activation)
    (name : String)
    (rest : List Parameter)
    {origin : ScopeRef}
    (contained : w.Contained False origin)
    {stack : List Frame}
    (frames : stack.all Frame.isLocal = true) :
    let waiting (caller : ScopeRef) : Frame :=
      .parameter { call with caller := caller } name rest
    let first := (w.under (waiting outer :: stack)).advance host state
    let second := (w.under (waiting inner :: stack)).advance host state
    InStep outer inner first.1 second.1 ∧ second.2 = first.2 := by
  intro waiting first second
  cases ends : w.outcome? with
  | none =>
    simp only [first, second, advance_under _ host ends]
    exact ⟨.default _ call name rest (contained.advance host state) frames, trivial⟩
  | some outcome =>
    obtain ⟨control, scope, above, store⟩ := w
    cases control with
    | give value =>
      cases above with
      | nil => exact ⟨.bind call rest scope scope frames _, rfl⟩
      | cons frame above => cases ends
    | unwind value =>
      cases above with
      | nil => exact contained.control.elim
      | cons frame above => cases ends
    | failed fault => exact ⟨.default _ call name rest contained frames, rfl⟩
    | exited status => exact ⟨.default _ call name rest contained frames, rfl⟩
    | _ => cases above <;> cases ends

/-- The remaining parameters are bound in the scope of the call, wherever it was made from. -/
theorem advance_bind
    (call : Activation)
    (parameters : List Parameter)
    (scope other : ScopeRef)
    {stack : List Frame}
    (frames : stack.all Frame.isLocal = true)
    (store : Store) :
    let binding (caller scope : ScopeRef) : Machine :=
      { control := .bind { call with caller := caller } parameters, scope := scope,
        stack := stack, store := store }
    let first := (binding outer scope).advance host state
    let second := (binding inner other).advance host state
    InStep outer inner first.1 second.1 ∧ second.2 = first.2 := by
  match parameters with
  | [] =>
    let body : Machine :=
      { control := .run call.body, scope := call.scope, stack := [], store := store }
    exact ⟨.body body frames, rfl⟩
  | .required name :: rest => exact ⟨.bind call rest scope other frames _, rfl⟩
  | .optional name value :: rest =>
    let missing : Machine :=
      { control := .evaluate value, scope := call.captured, stack := [], store := store }
    have contained : missing.Contained False call.captured := ⟨trivial, trivial, rfl⟩
    exact ⟨.default missing call name rest contained frames, rfl⟩

variable {bound : String → Bool}

/-- No part of the expression makes a difference between the two scopes. -/
theorem advance_here
    (m : Machine)
    (isLocal : m.control.isLocal = true)
    (frames : m.stack.all Frame.isLocal = true)
    (inset : m.store.Inset outer inner)
    (names : ∀ name, bound name = true → (m.store.lookup? outer name).isSome)
    (holds : (Layout.scopeless inner bound).Holds (m.within inner))
    (installed : (m.within inner).Installed) :
    let first := (m.within outer).advance host state
    let second := (m.within inner).advance host state
    InStep outer inner first.1 second.1 ∧ second.2 = first.2 := by
  intro first second
  obtain ⟨control, scope, stack, store⟩ := m
  have stays : ∀ control : Control, control.isLocal = true →
      InStep outer inner { control := control, scope := outer, stack := stack, store := store }
        { control := control, scope := inner, stack := stack, store := store } :=
    fun control isLocal => .here ⟨control, scope, stack, store⟩ isLocal frames
  cases control with
  | evaluate expr =>
    obtain ⟨_, scopeless⟩ := holds.code.control.2.2 rfl
    exact ⟨evaluate frames inset names (Node.passes_of_everywhere scopeless), rfl⟩
  | give value =>
    cases stack with
    | nil => exact ⟨stays (.give value) rfl, rfl⟩
    | cons frame rest =>
      obtain ⟨ofFrame, ofRest⟩ := Bool.and_eq_true_iff.1 frames
      let waiting : Machine :=
        { control := .give value, scope := scope, stack := rest, store := store }
      refine ⟨resume (m := waiting) ofRest inset value ofFrame ?_, rfl⟩
      rintro name rfl
      obtain ⟨position, namePosition, expr, runs⟩ := holds.code.stack.1
      exact names name (Node.passes_of_everywhere (runs.2.2 rfl).2)
  | apply callee arguments position =>
    exact ⟨apply frames (m := ⟨.apply callee arguments position, scope, stack, store⟩)
      ⟨installed.control, installed.stack, installed.store⟩ rfl, rfl⟩
  | await request position =>
    obtain ⟨_, answer, next, _, _, reply⟩ := installed.exists_reply rfl host state
    simp only [first, second, advance, within, request?, reply]
    exact ⟨stays (.give answer) rfl, trivial⟩
  | failed fault => exact ⟨stays (.failed fault) rfl, rfl⟩
  | exited status => exact ⟨stays (.exited status) rfl, rfl⟩
  | _ => cases isLocal

/-- Two evaluations that are equally far are so again after a step of each. -/
theorem advance
    (inStep : InStep outer inner m other)
    (inset : m.store.Inset outer inner)
    (names : ∀ name, bound name = true → (m.store.lookup? outer name).isSome)
    (holds : (Layout.scopeless inner bound).Holds other)
    (installed : other.Installed) :
    InStep outer inner (m.advance host state).1 (other.advance host state).1 ∧
      (other.advance host state).2 = (m.advance host state).2 := by
  cases inStep with
  | here m isLocal frames =>
    exact advance_here host state m isLocal frames inset names holds installed
  | bind call parameters scope other frames store =>
    exact advance_bind host state call parameters scope other frames store
  | default w call name rest contained frames =>
    exact advance_default host state w call name rest contained frames
  | body w frames => exact advance_body host state w frames

/-- Two evaluations that are equally far remain so, as long as the one scope has no names of its
own and the names that may be assigned to are bound around it. -/
theorem run
    {origin : ScopeRef}
    (inStep : InStep outer inner m other)
    (follows : (Layout.scopeless inner bound).Follows origin other)
    (state : State)
    (inset : ∀ limit, (m.run host limit state).1.store.Inset outer inner)
    (names : ∀ limit name, bound name = true →
      ((m.run host limit state).1.store.lookup? outer name).isSome)
    (limit : Nat) :
    InStep outer inner (m.run host limit state).1 (other.run host limit state).1 ∧
      (other.run host limit state).2 = (m.run host limit state).2 := by
  induction limit with
  | zero => exact ⟨inStep, rfl⟩
  | succ limit ih =>
    obtain ⟨before, sameState⟩ := ih
    cases ends : (m.run host limit state).1.outcome? with
    | some outcome =>
      have ended : (m.run host limit state).1.outcome?.isSome := by rw [ends]; rfl
      have otherEnded : (other.run host limit state).1.outcome?.isSome := by
        rw [before.outcome?, ends]
        rfl
      rw [run_of_le host ended (Nat.le_succ limit), run_of_le host otherEnded (Nat.le_succ limit)]
      exact ⟨before, sameState⟩
    | none =>
      have now := follows.run host limit state
      rw [run_succ limit ends, run_succ limit (before.outcome?.trans ends), sameState]
      exact before.advance host _ (inset limit) (names limit) now.holds now.installed

end Steps
end InStep

end Machine
end TinyScript
