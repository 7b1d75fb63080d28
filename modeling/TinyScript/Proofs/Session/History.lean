import TinyScript.Proofs.Machine.Keeping
import TinyScript.Proofs.Session.Reached

/-!
# The history of a session

Whatever a session is asked to do, and wherever that stops: its scopes remain a forest, and
no scope, name, constant or output that it had at one point is lost or moved at a later one
(`store_keeps_of_leads`).
-/

namespace TinyScript

/-- A scope that a function remembers is known to a store. -/
def Value.KnownIn (store : Store) : Value → Prop
  | .function _ captured => captured.index < store.scopes.size
  | .method receiver _ => receiver.KnownIn store
  | _ => True

/-- A function that is known to a store was made in a scope of it. -/
theorem Value.KnownIn.ofValue
    {store : Store}
    {value : Value}
    (isKnown : value.KnownIn store) :
    Layout.known.OfValue store value := by
  induction value with
  | function made captured => exact isKnown
  | method receiver method ih => exact ih isKnown
  | _ => trivial

/-- What a session is asked to do. -/
inductive Operation
  /-- A piece of source is run in the global scope. -/
  | source (text : String)
  /-- A program is run in a scope. -/
  | program (program : Program) (scope : ScopeRef)
  /-- A value is called from outside. -/
  | call (callee : Value) (arguments : List Value)

/-- Whatever scopes an operation speaks of are there, and none of its values is a function of the
surrounding program. -/
def Operation.Possible (session : Session) : Operation → Prop
  | .source _ => True
  | .program _ scope => scope.index < session.store.scopes.size
  | .call callee arguments =>
    ∀ value ∈ callee :: arguments, value.Installed ∧ value.KnownIn session.store

namespace Session

variable {State : Type}

/-- Does what a session is asked to, for some number of steps. -/
def perform (host : Host State) (limit : Nat) (session : Session) (operation : Operation)
    (state : State) : Result × Session × State :=
  match operation with
  | .source text => session.runSource host limit text state
  | .program program scope => session.runProgram host limit program scope state
  | .call callee arguments => session.call host limit callee arguments state

/-- The machine that an operation begins with, unless it is a source that is no program. -/
def begin? (session : Session) : Operation → Option Machine
  | .source text =>
    (Program.ofSource text).toOption.map (Machine.ofProgram · session.scope session.store)
  | .program program scope => some (Machine.ofProgram program scope session.store)
  | .call callee arguments =>
    some (Machine.ofCall callee arguments session.scope session.store)

/-- The sessions that operations lead to, done one after the other, each for some number of
steps.  In between, scopes may be made from outside for programs to be run in. -/
inductive Leads (host : Host State) (session : Session) (start : State) : Session → State → Prop
  | begin : Leads host session start session start
  | root {reached state} :
      Leads host session start reached state →
      Leads host session start { reached with store := reached.store.newRoot.2 } state
  | child {reached state} (parent : ScopeRef) :
      Leads host session start reached state → parent.index < reached.store.scopes.size →
      Leads host session start { reached with store := (reached.store.newChild parent).2 } state
  | perform {reached state} (operation : Operation) (limit : Nat) :
      Leads host session start reached state → operation.Possible reached →
      Leads host session start (reached.perform host limit operation state).2.1
        (reached.perform host limit operation state).2.2

variable (host : Host State)

/-- An operation changes nothing of a session but its store, and that as the machine does. -/
theorem perform_eq
    (session : Session)
    (operation : Operation)
    (limit : Nat)
    (state : State) :
    (session.perform host limit operation state).2.1 =
      match session.begin? operation with
      | none => session
      | some m => { session with store := (m.run host limit state).1.store } := by
  cases operation with
  | source text =>
    simp only [perform, begin?, runSource]
    cases Program.ofSource text <;> rfl
  | program program scope => rfl
  | call callee arguments => rfl

/-- The scopes of a session form a forest, and the functions in it were made in some of them. -/
structure Rooted (session : Session) : Prop where
  installed : session.store.Installed
  values : session.store.AllIn .whole (Layout.known.OfValue session.store)
  forest : session.store.Forest
  known : session.scope.index < session.store.scopes.size

/-- A fresh session is rooted in its global scope. -/
theorem Fresh.rooted
    {session : Session}
    (fresh : session.Fresh) :
    session.Rooted where
  installed := fresh.plain.imp fun _ plain =>
    plain.of_lasting Value.lasting_installed fun _ => id
  values := (Store.all_iff_allIn.1 fresh.plain).imp fun _ plain =>
    plain.of_lasting (Layout.known.lasting_ofValue _) fun _ _ => trivial
  forest ref parent inside := by
    have root : (session.store.scope ref).ancestors = [] :=
      (List.cons.inj (fresh.parentless ref)).2
    simp [Store.parent?, root] at inside
  known := fresh.known

namespace Rooted

variable {session : Session} {operation : Operation}

/-- An operation comes back to the scope that it begins in. -/
theorem follows
    (rooted : session.Rooted)
    (possible : operation.Possible session)
    {m : Machine}
    (begins : session.begin? operation = some m) :
    m.store = session.store ∧ Layout.known.Follows m.scope m := by
  have ofProgram : ∀ (program : Program) (scope : ScopeRef),
      scope.index < session.store.scopes.size →
        Layout.known.Follows scope (Machine.ofProgram program scope session.store) :=
    fun program scope isKnown =>
      Layout.follows_ofProgram rooted.installed rooted.values fun _ _ => isKnown
  cases operation with
  | source text =>
    obtain ⟨program, _, rfl⟩ := Option.map_eq_some_iff.1 begins
    exact ⟨rfl, ofProgram program session.scope rooted.known⟩
  | program program scope =>
    cases begins
    exact ⟨rfl, ofProgram program scope possible⟩
  | call callee arguments =>
    cases begins
    refine ⟨rfl, Layout.follows_ofCall rooted.installed rooted.values (fun value mem => ?_) _⟩
    exact ⟨(possible value mem).1, (possible value mem).2.ofValue⟩

/-- No operation, however long it is run, uproots a session. -/
theorem perform
    (rooted : session.Rooted)
    (possible : operation.Possible session)
    (limit : Nat)
    (state : State) :
    (session.perform host limit operation state).2.1.Rooted ∧
      (session.perform host limit operation state).2.1.scope = session.scope ∧
      (session.perform host limit operation state).2.1.store.Keeps session.store := by
  rw [perform_eq]
  cases begins : session.begin? operation with
  | none => exact ⟨rooted, rfl, .refl session.store⟩
  | some m =>
    obtain ⟨sameStore, follows⟩ := rooted.follows possible begins
    have ends := follows.run host limit state
    have keeps := Machine.run_keeps follows.installed host limit state
    have forest : m.store.Forest := sameStore ▸ rooted.forest
    rw [sameStore] at keeps
    exact ⟨{ installed := ends.installed.store
             values := ends.holds.values.store
             forest := forest.run follows host limit state
             known := keeps.scopes.known rooted.known }, rfl, keeps⟩

/-- An operation that is run for longer keeps what it had before. -/
theorem perform_keeps
    (rooted : session.Rooted)
    (possible : operation.Possible session)
    {count limit : Nat}
    (longer : count ≤ limit)
    (state : State) :
    (session.perform host limit operation state).2.1.store.Keeps
      (session.perform host count operation state).2.1.store := by
  obtain ⟨more, rfl⟩ := Nat.exists_eq_add_of_le longer
  rw [perform_eq, perform_eq]
  cases begins : session.begin? operation with
  | none => exact .refl session.store
  | some m =>
    have follows := (rooted.follows possible begins).2
    have stopped := follows.run host count state
    simp only [Machine.run_add]
    exact Machine.run_keeps stopped.installed host more _

/-- A further scope without a parent leaves a session rooted. -/
theorem newRoot
    (rooted : session.Rooted) :
    ({ session with store := session.store.newRoot.2 } : Session).Rooted where
  installed := Store.all_iff_allIn.2 (Store.all_iff_allIn.1 rooted.installed).newRoot
  values := (rooted.values.imp fun _ => Layout.OfValue.grows session.store.extends_newRoot).newRoot
  forest := rooted.forest.newRoot
  known := session.store.extends_newRoot.known rooted.known

/-- A further scope inside another one leaves a session rooted. -/
theorem newChild
    (rooted : session.Rooted)
    {parent : ScopeRef}
    (isKnown : parent.index < session.store.scopes.size) :
    ({ session with store := (session.store.newChild parent).2 } : Session).Rooted where
  installed := Store.all_iff_allIn.2 ((Store.all_iff_allIn.1 rooted.installed).newChild trivial)
  values :=
    (rooted.values.imp fun _ =>
      Layout.OfValue.grows (session.store.extends_newChild parent)).newChild
      trivial
  forest := rooted.forest.newChild isKnown
  known := (session.store.extends_newChild parent).known rooted.known

/-- Whatever is done in a session, it stays rooted, in the same global scope, and keeps what there
is. -/
theorem leads
    (rooted : session.Rooted)
    {start state : State}
    {later : Session}
    (leads : Leads host session start later state) :
    later.Rooted ∧ later.scope = session.scope ∧ later.store.Keeps session.store := by
  induction leads with
  | begin => exact ⟨rooted, rfl, .refl session.store⟩
  | root _ ih =>
    obtain ⟨rootedBefore, sameScope, keptBefore⟩ := ih
    exact ⟨rootedBefore.newRoot, sameScope, (Store.keeps_newRoot _).trans keptBefore⟩
  | child parent _ isKnown ih =>
    obtain ⟨rootedBefore, sameScope, keptBefore⟩ := ih
    exact ⟨rootedBefore.newChild isKnown, sameScope,
      (Store.keeps_newChild _ parent).trans keptBefore⟩
  | perform operation limit _ possible ih =>
    obtain ⟨rootedBefore, sameScope, keptBefore⟩ := ih
    obtain ⟨rootedAfter, scope, kept⟩ := rootedBefore.perform host possible limit _
    exact ⟨rootedAfter, scope.trans sameScope, kept.trans keptBefore⟩

end Rooted

/-- Let operations lead from a fresh session to some point of an operation, and that operation and
further ones to a later point.  At the later one the scopes form a forest in which every chain ends
at a root, and every constant is bound where it is protected.  The scopes of the earlier point, the
names in each, the constants and the output are still there, in their places and before all new
ones.
The session has the global scope that it began with, and wherever the operation stopped, also at a
fault, its frames lead back to the scope that it began in. -/
theorem store_keeps_of_leads
    {session reached later : Session}
    (fresh : session.Fresh)
    {start now next : State}
    (before : Leads host session start reached now)
    {operation : Operation}
    (possible : operation.Possible reached)
    {count limit : Nat}
    (longer : count ≤ limit)
    (after : Leads host (reached.perform host limit operation now).2.1
      (reached.perform host limit operation now).2.2 later next) :
    let earlier := (reached.perform host count operation now).2.1
    later.store.Forest ∧
      (∀ ref, ∃ root,
        (later.store.chain ref).getLast? = some root ∧ later.store.parent? root = none) ∧
      (∀ ref name, later.store.isConstant ref name = true →
        name ∈ (later.store.scope ref).bindings.keys) ∧
      later.store.Keeps earlier.store ∧
      earlier.scope = session.scope ∧
      later.scope = session.scope ∧
      ∀ m, reached.begin? operation = some m →
        let stopped := (m.run host count now).1
        earlier.store = stopped.store ∧
          stopped.home = m.scope ∧
          ∀ value, stopped.outcome? = some (.completed value) → stopped.scope = m.scope := by
  intro earlier
  obtain ⟨rooted, reachedScope, -⟩ := fresh.rooted.leads host before
  obtain ⟨rootedAt, earlierScope, -⟩ := rooted.perform host possible count now
  obtain ⟨rootedDone, doneScope, -⟩ := rooted.perform host possible limit now
  obtain ⟨rootedLater, laterScope, keptLater⟩ := rootedDone.leads host after
  have kept := keptLater.trans (rooted.perform_keeps host possible longer now)
  refine ⟨rootedLater.forest, rootedLater.forest.exists_root, fun ref name constant => ?_, kept,
    earlierScope.trans reachedScope, (laterScope.trans doneScope).trans reachedScope,
    fun m begins => ?_⟩
  · exact Store.mem_keys_of_isConstant constant
  · have stopped := (rooted.follows possible begins).2.run host count now
    have home := stopped.contained.home
    refine ⟨?_, home, fun value completed => ?_⟩
    · simp only [earlier, perform_eq, begins]
    · exact Machine.scope_of_completed home completed

/-- A default fails in a call that a loop of another function makes. -/
theorem store_keeps_of_leads_of_fault :
    let define : Operation :=
      .source
        "g = fn(x = null - 1) \x7b x \x7d\nf = fn() \x7b while (true) \x7b y = 1; g() \x7d \x7d"
    let fail : Operation := .source "n: const = 'two'\ndebug n\nf()"
    let more : Operation := .source "z = 3"
    let defined := standard.perform still 60 define ()
    let stopped := defined.2.1.perform still 40 fail defined.2.2
    let failed := defined.2.1.perform still 80 fail defined.2.2
    let later := failed.2.1.perform still 20 more failed.2.2
    let globals (session : Session) := (session.store.scope standard.scope).bindings.keys.drop 8
    (((defined.2.1.begin? fail).any fun m =>
        let last := (m.run still 40 defined.2.2).1
        last.outcome?.isSome && last.stack.length == 6 && last.home == standard.scope) ∧
      globals defined.2.1 = ["g", "f"] ∧
      globals stopped.2.1 = ["g", "f", "n"] ∧
      globals later.2.1 = ["g", "f", "n", "z"] ∧
      later.2.1.store.isConstant standard.scope "n" = true ∧
      later.2.1.store.output.text = "DEBUG: 'two'\n") ∧
    standard.Fresh ∧
    Leads still standard () defined.2.1 defined.2.2 ∧
    fail.Possible defined.2.1 ∧
    40 ≤ 80 ∧
    Leads still failed.2.1 failed.2.2 later.2.1 later.2.2 ∧
    later.2.1.store.Keeps stopped.2.1.store ∧
    later.2.1.scope = standard.scope := by
  intro define fail more defined stopped failed later globals
  refine ⟨by decide +kernel, fresh_standard, ?_⟩
  have first : define.Possible standard := trivial
  have second : fail.Possible defined.2.1 := trivial
  have third : more.Possible failed.2.1 := trivial
  -- From here on it does not matter which sources these are, and they are not to be evaluated.
  clear_value define fail more
  have before : Leads still standard () defined.2.1 defined.2.2 :=
    .perform define 60 .begin first
  have onwards : Leads still failed.2.1 failed.2.2 later.2.1 later.2.2 :=
    .perform more 20 .begin third
  have longer : 40 ≤ 80 := by decide
  obtain ⟨-, -, -, kept, -, scope, -⟩ :=
    store_keeps_of_leads still fresh_standard before second longer onwards
  exact ⟨before, second, longer, onwards, kept, scope⟩

end Session
end TinyScript
