import TinyScript.Proofs.Machine.Keeping

/-!
# Scopes that nothing leads to

A scope that no value leads to, and that is around no other one, is neither read nor changed by
a run outside of it, whatever the run does (`Outside.run`).  The surrounding program may keep
values of its own and call functions that change the store, as long as it also only goes where
something leads.
-/

namespace TinyScript

/-! ## Where functions of the surrounding program are called -/

/-- An action calls a function of the surrounding program, if at all, from one scope. -/
def Action.From (scope : ScopeRef) : Action → Prop
  | .ask _ (.host _ _ caller) => caller = scope
  | _ => True

/-- A native function calls on the surrounding program from no scope but the one at hand. -/
theorem Native.from_perform
    (native : Native)
    (arguments : List Value)
    (scope : ScopeRef)
    (store : Store) :
    Gives (Action.From scope) (native.perform arguments scope store) := by
  intro action ok
  have ran : native.run arguments scope store = .ok action := by
    unfold perform at ok
    split at ok
    · exact ok
    · split at ok
      · exact ok
      · cases ok
  cases native with
  | host name arity =>
    cases ran
    rfl
  | length | exit | math | min | max =>
    obtain ⟨value, _, given⟩ := exists_of_bind_eq_ok ran
    cases given
    trivial
  | pow =>
    obtain ⟨base, _, given⟩ := exists_of_bind_eq_ok ran
    obtain ⟨exponent, _, given⟩ := exists_of_bind_eq_ok given
    cases given
    trivial
  | _ =>
    cases ran
    trivial

/-- A member function asks nothing. -/
theorem Method.from_perform
    (method : Method)
    (receiver : Value)
    (arguments : List Value)
    (scope : ScopeRef)
    (store : Store) :
    Gives (Action.From scope) (method.perform receiver arguments store) := by
  intro action ok
  cases action with
  | ask prompt request =>
    revert ok
    cases receiver <;> cases method <;>
      simp only [perform, runText, runArray, runObject, runFunction, runDisplay, bind, Except.bind,
        pure, Except.pure, throw, throwThe, MonadExceptOf.throw] <;>
      grind
  | _ => trivial

/-! ## Machines that stay in a region -/

namespace Machine

/-- The frames of a stack go on in scopes of a region, when the work in a scope is done. -/
def StackStays (region : Region) : ScopeRef → List Frame → Prop
  | _, [] => True
  | scope, frame :: rest =>
    region.scopes (scopeBelow scope frame) ∧ StackStays region (scopeBelow scope frame) rest

/-- A function of the surrounding program is called from a scope of a region. -/
def ControlStays (region : Region) : Control → Prop
  | .await (.host _ _ caller) _ => region.scopes caller
  | _ => True

/-- The scope at hand and all those that a machine comes back to lie in a region. -/
structure Stays (region : Region) (m : Machine) : Prop where
  scope : region.scopes m.scope
  floor : region.scopes m.floor
  control : ControlStays region m.control
  stack : StackStays region m.floor m.stack

namespace Stays

variable {region : Region} {m : Machine}

section Rests

variable (here : region.scopes m.scope) (rests : StackStays region m.scope m.stack)

include here rests

theorem giveOrFail
    (position : Position)
    (result : Except Fault.Cause Value) :
    (m.giveOrFail position result).Stays region := by
  cases result <;> exact ⟨here, here, trivial, rests⟩

theorem evaluateItems
    (done : List Value)
    (items : List Expr) :
    (m.evaluateItems done items).Stays region := by
  cases items with
  | nil => exact ⟨here, here, trivial, rests⟩
  | cons item items => exact ⟨here, here, trivial, here, rests⟩

theorem evaluateFields
    (done : Table Value)
    (fields : List Field) :
    (m.evaluateFields done fields).Stays region := by
  match fields with
  | [] => exact ⟨here, here, trivial, rests⟩
  | .mk key value :: rest => exact ⟨here, here, trivial, here, rests⟩

theorem evaluateArguments
    (position : Position)
    (callee : Value)
    (done : List Value)
    (arguments : List Expr) :
    (m.evaluateArguments position callee done arguments).Stays region := by
  cases arguments with
  | nil => exact ⟨here, here, trivial, rests⟩
  | cons argument arguments => exact ⟨here, here, trivial, here, rests⟩

theorem evaluateShown
    (done : List String)
    (values : List Expr) :
    (m.evaluateShown done values).Stays region := by
  cases values with
  | nil => exact ⟨here, here, trivial, rests⟩
  | cons value values => exact ⟨here, here, trivial, here, rests⟩

/-- The parts of an expression are evaluated in the region. -/
theorem evaluate
    (expr : Expr) :
    (m.evaluate expr).Stays region := by
  cases expr with
  | array position items => exact evaluateItems here rests [] items
  | object position fields => exact evaluateFields here rests .empty fields
  | step position side op operand =>
    cases operand with
    | name namePosition name =>
      simp only [Machine.evaluate, stepName]
      split <;> exact ⟨here, here, trivial, rests⟩
    | _ => exact ⟨here, here, trivial, rests⟩
  | assign position target value =>
    cases target with
    | name | member | index => exact ⟨here, here, trivial, here, rests⟩
    | _ => exact ⟨here, here, trivial, rests⟩
  | function position name exported parameters body =>
    cases name <;> exact ⟨here, here, trivial, rests⟩
  | number | text | bool | undefined | null | name => exact ⟨here, here, trivial, rests⟩
  | _ => exact ⟨here, here, trivial, here, rests⟩

/-- A statement stays in the region if the scope that it may open is in it. -/
theorem execute
    (opened : region.scopes (m.store.newChild m.scope).1)
    (statement : Stmt) :
    (m.execute statement).Stays region := by
  cases statement with
  | expr position value => exact ⟨here, here, trivial, rests⟩
  | forLoop position start test update body => exact ⟨opened, opened, trivial, here, rests⟩
  | debug position values => exact evaluateShown here rests [] values
  | returnNothing position => exact ⟨here, here, trivial, rests⟩
  | use position library => exact ⟨here, here, trivial, rests⟩
  | _ => exact ⟨here, here, trivial, here, rests⟩

theorem actOrFail
    (position : Option Position)
    {result : Except Fault.Cause Action}
    (fromHere : Gives (Action.From m.scope) result) :
    (m.actOrFail position result).Stays region := by
  cases result with
  | error cause => exact ⟨here, here, trivial, rests⟩
  | ok action =>
    cases action with
    | ask prompt request =>
      refine ⟨here, here, ?_, rests⟩
      cases request with
      | host name arguments caller =>
        have isHere : caller = m.scope := fromHere _ rfl
        exact isHere ▸ here
      | _ => trivial
    | _ => exact ⟨here, here, trivial, rests⟩

/-- A call stays in the region that the function belongs to. -/
theorem apply
    (callee : Value)
    (arguments : List Value)
    (position : Option Position) :
    (m.apply callee arguments position).Stays region := by
  cases callee with
  | native native =>
    exact actOrFail here rests position (native.from_perform arguments m.scope m.store)
  | method receiver method =>
    exact actOrFail here rests position (method.from_perform receiver arguments m.scope m.store)
  | _ => exact ⟨here, here, trivial, rests⟩

end Rests

/-- Defaults are evaluated in the region if the scopes that their functions captured are in it. -/
theorem bindParameters
    {call : Activation}
    (here : region.scopes m.scope)
    (caller : region.scopes call.caller)
    (rests : StackStays region call.caller m.stack)
    (scope : region.scopes call.scope)
    {parameters : List Parameter}
    (captured : ∀ name default, Parameter.optional name default ∈ parameters →
      region.scopes call.captured) :
    (m.bindParameters call parameters).Stays region := by
  match parameters with
  | [] => exact ⟨scope, scope, trivial, caller, rests⟩
  | .required name :: rest => exact ⟨here, caller, trivial, rests⟩
  | .optional name default :: rest =>
    have inside := captured name default List.mem_cons_self
    exact ⟨inside, inside, trivial, caller, rests⟩

/-- A frame goes on in the region if the scope below it is in it. -/
theorem resume
    (here : region.scopes m.scope)
    (value : Value)
    {frame : Frame}
    (below : region.scopes (scopeBelow m.scope frame))
    (rests : StackStays region (scopeBelow m.scope frame) m.stack) :
    (m.resume value frame).Stays region := by
  cases frame with
  | items done rest => exact evaluateItems here rests _ rest
  | fields done key rest => exact evaluateFields here rests _ rest
  | binary position op left => exact giveOrFail here rests position _
  | logical op operand =>
    simp only [Machine.resume]
    split <;> exact ⟨here, here, trivial, rests⟩
  | unary position op => exact giveOrFail here rests position _
  | assignValue position subject key =>
    simp only [Machine.resume]
    split <;> exact ⟨here, here, trivial, rests⟩
  | callee position arguments => exact evaluateArguments here rests position value [] arguments
  | arguments position callee done rest => exact evaluateArguments here rests position callee _ rest
  | member position key => exact giveOrFail here rests position _
  | key position subject => exact giveOrFail here rests position _
  | whileTest test body last =>
    simp only [Machine.resume]
    split
    · exact ⟨here, here, trivial, here, rests⟩
    · exact ⟨here, here, trivial, rests⟩
  | forTest loop last =>
    simp only [Machine.resume]
    split
    · exact ⟨here, here, trivial, below, rests⟩
    · exact ⟨below, below, trivial, rests⟩
  | debug done rest => exact evaluateShown here rests _ rest
  | sequence rest => cases rest <;> exact ⟨here, here, trivial, rests⟩
  | parameter call name rest => exact ⟨here, below, trivial, rests⟩
  | call caller => exact ⟨below, below, trivial, rests⟩
  | right | assignMember | assignIndex | assignKey | index | whileBody | forStart | forBody
  | forUpdate => exact ⟨here, here, trivial, below, rests⟩
  | _ => exact ⟨here, here, trivial, rests⟩

/-- A return comes back to a scope of the region. -/
theorem leave
    (here : region.scopes m.scope)
    (value : Value)
    {frame : Frame}
    {outside : Prop}
    (returns : Returns outside (frame :: m.stack))
    (below : region.scopes (scopeBelow m.scope frame))
    (rests : StackStays region (scopeBelow m.scope frame) m.stack) :
    (m.leave value frame).Stays region := by
  cases frame with
  | sequence rest => exact ⟨here, here, trivial, rests⟩
  | whileBody test body => exact ⟨here, here, trivial, rests⟩
  | forBody loop => exact ⟨below, below, trivial, rests⟩
  | call caller => exact ⟨below, below, trivial, rests⟩
  | _ => exact returns.elim

/-- A step goes on in the region of a layout that its machine keeps to. -/
theorem step
    {layout : Layout}
    (stays : m.Stays layout.region)
    (holds : layout.Holds m)
    {outside : Prop}
    {origin : ScopeRef}
    (contained : m.Contained outside origin) :
    m.step.Stays layout.region := by
  obtain ⟨control, scope, stack, store⟩ := m
  obtain ⟨here, floor, ofControl, rests⟩ := stays
  cases control with
  | evaluate expr => exact evaluate here rests expr
  | execute statement =>
    exact execute here rests (holds.values.store.newScopes _ (Nat.le_refl _)) statement
  | run body =>
    cases body with
    | nil => exact ⟨here, here, trivial, rests⟩
    | cons statement rest => exact ⟨here, here, trivial, here, rests⟩
  | give value =>
    cases stack with
    | nil => exact ⟨here, here, trivial, rests⟩
    | cons frame rest =>
      exact resume (m := { control := .give value, scope := scope, stack := rest, store := store })
        here value rests.1 rests.2
  | unwind value =>
    cases stack with
    | nil => exact ⟨here, here, trivial, rests⟩
    | cons frame rest =>
      exact leave (m := { control := .unwind value, scope := scope, stack := rest, store := store })
        here value contained.control rests.1 rests.2
  | apply callee arguments position => exact apply here rests callee arguments position
  | bind call parameters =>
    have ofCall : layout.OfCall store call parameters := holds.code.control
    exact bindParameters here floor rests (layout.within ofCall.body)
      fun name default mem => layout.within (ofCall.defaults name default mem)
  | await request position => exact ⟨here, here, ofControl, rests⟩
  | failed fault => exact ⟨here, here, trivial, rests⟩
  | exited status => exact ⟨here, here, trivial, rests⟩

end Stays
end Machine

/-! ## Scopes that are left alone -/

namespace Store

variable {store : Store} {hidden ref : ScopeRef}

/-- Stores with the same scopes have the same one behind each reference. -/
theorem scope_of_scopes_eq
    {later : Store}
    (same : later.scopes = store.scopes)
    (ref : ScopeRef) :
    later.scope ref = store.scope ref := by
  simp only [scope, same]

/-- A scope that has others around it is known to the store. -/
theorem known_of_mem_ancestors
    {outer : ScopeRef}
    (around : outer ∈ (store.scope ref).ancestors) :
    ref.index < store.scopes.size := by
  refine Nat.lt_of_not_le fun unknown => ?_
  simp [scope, unknown] at around

/-- A new scope changes none that is there. -/
theorem scope_newChild_of_known
    (known : ref.index < store.scopes.size)
    (parent : ScopeRef) :
    (store.newChild parent).2.scope ref = store.scope ref := by
  simp [scope, newChild, Array.getElem?_push, Nat.ne_of_lt known]

/-- The arguments of a call are bound in no scope but its own. -/
theorem scope_bindArguments_of_ne
    (differs : hidden ≠ ref)
    (store : Store)
    (parameters : List Parameter)
    (arguments : List Value) :
    (Machine.bindArguments store ref parameters arguments).scope hidden = store.scope hidden :=
  bindArguments_preserves (P := fun later => later.scope hidden = store.scope hidden)
    (fun later name value same => (scope_declare_of_ne differs later name value false).trans same)
    rfl parameters arguments

/-- An assignment changes no scope outside of the chain that the name is looked for in. -/
theorem scope_assign_of_not_mem
    (outside : hidden ∉ store.chain ref)
    (name : String)
    (value : Value) :
    (store.assign ref name value).scope hidden = store.scope hidden := by
  have apart : ∀ outer ∈ store.chain ref, hidden ≠ outer := by
    rintro outer mem rfl
    exact outside mem
  unfold assign
  split
  · exact scope_declare_of_ne (apart ref List.mem_cons_self) store name value false
  · rename_i binder found
    split
    · rfl
    · exact scope_declare_of_ne (apart binder (List.mem_of_find?_eq_some found)) store name value
        false

end Store

/-- Everything but one scope. -/
def Region.apart (hidden : ScopeRef) : Region where
  scopes ref := ref ≠ hidden
  arrays _ := True
  objects _ := True

/-- A store has a scope that nothing outside of it leads to. -/
structure Store.Hides (store : Store) (hidden : ScopeRef) : Prop where
  known : hidden.index < store.scopes.size
  others : store.AllIn (.apart hidden) (Region.apart hidden).Holds

/-- The layout in which any code may be run in any scope but one that there is. -/
def Layout.apart (hidden : ScopeRef) : Layout where
  region := .apart hidden
  Runs store scope _ := hidden.index < store.scopes.size ∧ scope ≠ hidden
  within runs := runs.2
  grows grown runs := ⟨grown.known runs.1, runs.2⟩
  part runs _ := runs
  inside := by
    intro store scope whole part runs _
    refine ⟨(store.extends_newChild scope).known runs.1, ?_⟩
    rintro rfl
    exact Nat.lt_irrefl _ runs.1

section Apart

variable {store : Store} {hidden : ScopeRef}

/-- A value may be used apart from a scope just when it does not lead there. -/
theorem Layout.ofValue_apart_iff
    (known : hidden.index < store.scopes.size)
    {value : Value} :
    (apart hidden).OfValue store value ↔ (Region.apart hidden).Holds value := by
  induction value with
  | function function captured => exact ⟨And.right, fun differs => ⟨known, differs⟩⟩
  | method receiver method ih => exact ih
  | _ => exact Iff.rfl

/-- What was made in a scope that there is does not lead to one that is yet to be made. -/
theorem Layout.holds_apart_of_known
    (new : store.scopes.size ≤ hidden.index)
    {value : Value}
    (ofValue : known.OfValue store value) :
    (Region.apart hidden).Holds value := by
  induction value with
  | function function captured =>
    rintro rfl
    exact absurd ofValue (Nat.not_lt_of_le new)
  | method receiver method ih => exact ih ofValue
  | _ => trivial

/-- A hidden scope is not to be found from anything in the store. -/
theorem Store.Hides.ofStore
    (hides : store.Hides hidden) :
    store.AllIn (.apart hidden) ((Layout.apart hidden).OfValue store) :=
  hides.others.imp fun _ => (Layout.ofValue_apart_iff hides.known).2

/-- A hidden scope is around no other one. -/
theorem Store.Hides.not_mem_chain
    (hides : store.Hides hidden)
    {ref : ScopeRef}
    (differs : ref ≠ hidden) :
    hidden ∉ store.chain ref := by
  intro mem
  rcases List.mem_cons.1 mem with same | around
  · exact differs same.symm
  · exact hides.others.around ref differs hidden around rfl

end Apart

/-- A machine works outside of a scope that nothing leads to, and comes back to another one. -/
structure Machine.Outside (hidden origin : ScopeRef) (m : Machine) : Prop where
  known : hidden.index < m.store.scopes.size
  holds : (Layout.apart hidden).Holds m
  stays : m.Stays (.apart hidden)
  contained : m.Contained False origin

/-- The surrounding program goes only where something leads it.  Some of its states say nothing of a
scope: from these it comes to others of them, and if neither the store nor what it is given leads to
the scope, then it does not change that scope and gives nothing back that leads there. -/
structure Host.KeepsOff {State : Type} (host : Host State) (unaware : State → Prop)
    (hidden : ScopeRef) : Prop where
  readLine : ∀ state, unaware state → unaware (host.readLine state).2
  clock : ∀ state, unaware state → unaware (host.clock state).2
  random : ∀ state, unaware state → unaware (host.random state).2
  call : ∀ name arguments caller store state, unaware state → store.Hides hidden →
    caller ≠ hidden → (∀ argument ∈ arguments, (Region.apart hidden).Holds argument) →
      let answer := host.call name arguments caller store state
      unaware answer.2.2 ∧ answer.2.1.Extends store ∧ answer.2.1.Hides hidden ∧
        answer.2.1.scope hidden = store.scope hidden ∧
        ∀ value, answer.1 = .ok value → (Region.apart hidden).Holds value

namespace Machine.Outside

variable {m : Machine} {hidden origin : ScopeRef} (outside : m.Outside hidden origin)

include outside

/-- A machine outside a hidden scope does not lead there. -/
theorem hides :
    m.store.Hides hidden :=
  ⟨outside.known,
    outside.holds.values.store.imp fun _ => (Layout.ofValue_apart_iff outside.known).1⟩

/-- A step of a machine that is outside a hidden scope stays outside it. -/
theorem step :
    m.step.Outside hidden origin where
  known := m.step_extends.known outside.known
  holds := outside.holds.step outside.contained
  stays := outside.stays.step outside.holds outside.contained
  contained := outside.contained.step

/-- A step changes nothing in the scope. -/
theorem scope_step :
    m.step.store.scope hidden = m.store.scope hidden := by
  have of_scopes : ∀ {later : Store}, m.step.store.scopes = later.scopes →
      later.scope hidden = m.store.scope hidden →
        m.step.store.scope hidden = m.store.scope hidden :=
    fun same left => (Store.scope_of_scopes_eq same hidden).trans left
  have away : hidden ≠ m.scope := Ne.symm outside.stays.scope
  have fresh : ∀ parent, hidden ≠ (m.store.newChild parent).1 := by
    rintro parent rfl
    exact Nat.lt_irrefl _ outside.known
  cases Edits.step m with
  | keep same => exact Store.scope_of_scopes_eq same hidden
  | assign name value _ same =>
    exact of_scopes same
      (Store.scope_assign_of_not_mem (outside.hides.not_mem_chain (Ne.symm away)) name value)
  | makeFunction value _ same =>
    exact of_scopes same (Store.scope_declare_of_ne away m.store _ value true)
  | declare value constant _ _ same =>
    exact of_scopes same (Store.scope_declare_of_ne away m.store _ value constant)
  | bindMissing atHand same =>
    have ofCall := outside.holds.code.control
    rw [atHand] at ofCall
    exact of_scopes same
      (Store.scope_declare_of_ne (Ne.symm ofCall.body.2) m.store _ .undefined false)
  | bindDefault value onStack same =>
    have ofFrames := outside.holds.code.stack
    rw [onStack] at ofFrames
    exact of_scopes same
      (Store.scope_declare_of_ne (Ne.symm ofFrames.1.body.2) m.store _ value false)
  | openLoop _ same => exact of_scopes same (Store.scope_newChild_of_known outside.known m.scope)
  | openCall _ same =>
    exact of_scopes same ((Store.scope_bindArguments_of_ne (fresh _) _ _ _).trans
      (Store.scope_newChild_of_known outside.known _))

/-- A question may be answered in a store that has been changed elsewhere. -/
theorem answer
    {later : Store}
    (grown : later.Extends m.store)
    (hides : later.Hides hidden)
    {reply : Except String Value}
    (away : ∀ value, reply = .ok value → (Region.apart hidden).Holds value) :
    (({ m with store := later } : Machine).answer reply).Outside hidden origin := by
  obtain ⟨control, scope, stack, store⟩ := m
  obtain ⟨known, ⟨code, values⟩, stays, contained⟩ := outside
  have ofStack := Layout.OfStack.grows grown code.stack
  have ofFrames : ∀ frame ∈ stack, frame.All ((Layout.apart hidden).OfValue later) :=
    fun frame mem => (values.stack frame mem).imp fun _ => Layout.OfValue.grows grown
  cases control with
  | await request position =>
    cases reply with
    | ok value =>
      have ofValue := (Layout.ofValue_apart_iff hides.known).2 (away value rfl)
      exact ⟨hides.known, ⟨⟨trivial, ofStack⟩, ofValue, ofFrames, hides.ofStore⟩,
        ⟨stays.scope, stays.scope, trivial, stays.stack⟩,
        ⟨trivial, contained.stack, contained.home⟩⟩
    | error message =>
      exact ⟨hides.known, ⟨⟨trivial, ofStack⟩, trivial, ofFrames, hides.ofStore⟩,
        ⟨stays.scope, stays.scope, trivial, stays.stack⟩,
        ⟨trivial, contained.stack, contained.home⟩⟩
  | _ =>
    exact ⟨hides.known,
      ⟨⟨Layout.OfControl.grows grown code.control, ofStack⟩,
        values.control.imp fun _ => Layout.OfValue.grows grown, ofFrames, hides.ofStore⟩,
      ⟨stays.scope, stays.floor, stays.control, stays.stack⟩,
      ⟨contained.control, contained.stack, contained.home⟩⟩

end Machine.Outside

namespace Machine

/-- Where a run has come to outside of a scope, with what it has left of the scope. -/
structure Spares (hidden origin : ScopeRef) {State : Type} (unaware : State → Prop) (store : Store)
    (later : Machine × State) : Prop where
  outside : later.1.Outside hidden origin
  unaware : unaware later.2
  grown : later.1.store.Extends store
  scope : later.1.store.scope hidden = store.scope hidden

variable {State : Type} {host : Host State} {unaware : State → Prop} {m : Machine}
  {hidden origin : ScopeRef}

/-- A run that spares a hidden scope may come after another one. -/
theorem Spares.trans
    {store middle : Store}
    {later : Machine × State}
    (second : Spares hidden origin unaware middle later)
    (grown : middle.Extends store)
    (same : middle.scope hidden = store.scope hidden) :
    Spares hidden origin unaware store later :=
  { second with
    grown := second.grown.trans grown
    scope := second.scope.trans same }

/-- An answer that does not lead to a hidden scope spares it. -/
theorem Outside.answer_spares
    (outside : m.Outside hidden origin)
    {state : State}
    (isUnaware : unaware state)
    {reply : Except String Value}
    (away : ∀ value, reply = .ok value → (Region.apart hidden).Holds value) :
    Spares hidden origin unaware m.store (m.answer reply, state) := by
  exact
    { outside := outside.answer (.refl _) outside.hides away
      unaware := isUnaware
      grown := Store.extends_of_scopes_eq (by rw [store_answer])
      scope := by rw [store_answer] }

/-- Neither a step nor an answer of the surrounding program goes near the scope. -/
theorem Outside.advance
    (outside : m.Outside hidden origin)
    (keepsOff : host.KeepsOff unaware hidden)
    {state : State}
    (isUnaware : unaware state) :
    Spares hidden origin unaware m.store (m.advance host state) := by
  unfold Machine.advance
  cases asks : m.request? with
  | none => exact ⟨outside.step, isUnaware, m.step_extends, outside.scope_step⟩
  | some request =>
    cases request with
    | readLine =>
      refine outside.answer_spares (keepsOff.readLine state isUnaware) fun value ok => ?_
      cases ok
      trivial
    | clock =>
      refine outside.answer_spares (keepsOff.clock state isUnaware) fun value ok => ?_
      cases ok
      trivial
    | random =>
      refine outside.answer_spares (keepsOff.random state isUnaware) fun value ok => ?_
      cases ok
      trivial
    | host name arguments caller =>
      obtain ⟨position, waits⟩ :
          ∃ position, m.control = .await (.host name arguments caller) position := by
        unfold request? at asks
        split at asks
        · cases asks
          exact ⟨_, by assumption⟩
        · cases asks
      have elsewhere := outside.stays.control
      have ofRequest := outside.holds.values.control
      rw [waits] at elsewhere ofRequest
      obtain ⟨stillUnaware, grown, hides, same, away⟩ :=
        keepsOff.call name arguments caller m.store state isUnaware outside.hides elsewhere
          fun argument mem => (Layout.ofValue_apart_iff outside.known).1 (ofRequest.2 argument mem)
      exact
        { outside := outside.answer grown hides away
          unaware := stillUnaware
          grown := by rwa [store_answer]
          scope := by rwa [store_answer] }

/-- A run outside of a scope leaves it alone. -/
theorem Outside.run
    (outside : m.Outside hidden origin)
    (keepsOff : host.KeepsOff unaware hidden)
    {state : State}
    (isUnaware : unaware state)
    (limit : Nat) :
    Spares hidden origin unaware m.store (m.run host limit state) := by
  induction limit generalizing m state with
  | zero => exact ⟨outside, isUnaware, .refl _, rfl⟩
  | succ limit ih =>
    simp only [Machine.run]
    split
    · exact ⟨outside, isUnaware, .refl _, rfl⟩
    · have first := outside.advance keepsOff isUnaware
      exact (ih first.outside first.unaware).trans first.grown first.scope

end Machine
end TinyScript
