import TinyScript.Proofs.Machine.Layout
import TinyScript.Proofs.Machine.Moments
import TinyScript.Proofs.Session.Reached

/-!
# Scopes mirror the nesting of programs

However deep a recursion is, the chain of the scope at hand is as long as the code at hand
is deep in its program, and one more for the global scope
(`length_chain_eq_depth`).  The scope that a function captured was at hand when the function was
made, and so its chain is as long as the expression that made it is deep
(`exists_visited_of_function`).
-/

namespace TinyScript

/-- A node stands in one of some programs at a static depth. -/
def Program.OccursIn (programs : List Program) (depth : Nat) (node : Node) : Prop :=
  ∃ program ∈ programs, program.Occurs depth node

namespace Layout

/-- The layout in which a node runs in the scopes that have as many others around them as its
static depth is. -/
def nested (programs : List Program) : Layout where
  region := .whole
  Runs store scope node :=
    scope.index < store.scopes.size ∧
      Program.OccursIn programs (store.scope scope).ancestors.length node
  within _ := trivial
  grows := by
    rintro store later scope node grown ⟨known, occurs⟩
    exact ⟨grown.known known, by rwa [grown.ancestors scope known]⟩
  part := by
    rintro store scope whole part ⟨known, program, mem, occurs⟩ isPart
    exact ⟨known, program, mem, occurs.part isPart⟩
  inside := by
    rintro store scope whole part ⟨known, program, mem, occurs⟩ isInside
    refine ⟨store.newChild_known scope, program, mem, ?_⟩
    rw [store.ancestors_newChild scope]
    exact occurs.inside isInside

variable (layout : Layout)

/-- Every scope of a store is at the root of its chain, or there is code that may be run in it. -/
def Populates (store : Store) : Prop :=
  ∀ ref : ScopeRef, ref.index < store.scopes.size →
    (store.scope ref).ancestors = [] ∨ ∃ node, layout.Runs store ref node

variable {layout : Layout} {store later : Store}

/-- Scopes that are new are populated if there is code to be run in each of them. -/
theorem Populates.grows
    (populates : layout.Populates store)
    (grown : later.Extends store)
    (opened : ∀ ref : ScopeRef, store.scopes.size ≤ ref.index →
      ref.index < later.scopes.size → ∃ node, layout.Runs later ref node) :
    layout.Populates later := by
  intro ref known
  by_cases knownBefore : ref.index < store.scopes.size
  · rw [grown.ancestors ref knownBefore]
    exact (populates ref knownBefore).imp id
      fun ⟨node, runs⟩ => ⟨node, layout.grows grown runs⟩
  · exact .inr (opened ref (Nat.le_of_not_lt knownBefore) known)

/-- A scope is only made for code that is to be run in it. -/
theorem Populates.step
    {m : Machine}
    (populates : layout.Populates m.store)
    (holds : layout.Holds m) :
    layout.Populates m.step.store := by
  refine populates.grows m.step_extends fun ref fresh known => ?_
  have none_of_size : m.step.store.scopes.size = m.store.scopes.size →
      ∃ node, layout.Runs m.step.store ref node := by
    intro same
    omega
  -- A new scope is the last one of a store.
  have last : ∀ {parent : ScopeRef},
      m.step.store.scopes.size = (m.store.newChild parent).2.scopes.size →
        ref = (m.store.newChild parent).1 := by
    intro parent same
    rw [Store.size_newChild] at same
    obtain ⟨index⟩ := ref
    have isLast : index = m.store.scopes.size := by
      simp only at fresh known
      omega
    rw [isLast]
    rfl
  cases Machine.Edits.step m with
  | keep same => exact none_of_size (by rw [same])
  | assign name value _ same => exact none_of_size (by rw [same, Store.size_assign])
  | makeFunction value _ same => exact none_of_size (by rw [same, Store.size_declare])
  | declare value constant _ _ same => exact none_of_size (by rw [same, Store.size_declare])
  | bindMissing _ same => exact none_of_size (by rw [same, Store.size_declare])
  | bindDefault value _ same => exact none_of_size (by rw [same, Store.size_declare])
  | openLoop atHand same =>
    have runs := holds.code.control
    rw [atHand] at runs
    rw [last (by rw [same])]
    exact ⟨_, layout.grows (Store.extends_of_scopes_eq same) (layout.inside runs .start)⟩
  | openCall atHand same =>
    have ofCallee := holds.values.control
    rw [atHand] at ofCallee
    rw [last (by rw [same, Store.size_bindArguments])]
    exact ⟨_, layout.grows (Store.extends_of_scopes_eq same)
      (layout.grows (Store.extends_bindArguments _ _ _ _) (layout.inside ofCallee.1 .body))⟩

variable {State : Type} {m : Machine} {origin : ScopeRef}

/-- An advance leaves the scopes of a store populated. -/
theorem Populates.advance
    (populates : layout.Populates m.store)
    (follows : layout.Follows origin m)
    (host : Host State)
    (state : State) :
    layout.Populates (m.advance host state).1.store := by
  rcases follows.installed.store_advance host state with steps | same
  · rw [steps]
    exact populates.step follows.holds
  · rw [same]
    exact populates

/-- A run leaves the scopes of a store populated. -/
theorem Populates.run
    (populates : layout.Populates m.store)
    (follows : layout.Follows origin m)
    (host : Host State)
    (limit : Nat)
    (state : State) :
    layout.Populates (m.run host limit state).1.store := by
  have both :=
    Machine.run_preserves (p := fun m => layout.Follows origin m ∧ layout.Populates m.store) host
      (fun _ state ⟨follows, populates⟩ =>
        ⟨follows.advance host state, populates.advance follows host state⟩)
      ⟨follows, populates⟩ limit state
  exact both.2

end Layout

/-- The chain of the scope that a function was made in is as long as the function is deep in one of
some programs, and one more for the global scope. -/
def Value.Mirrors (programs : List Program) (store : Store) : Value → Prop
  | .function made captured =>
    ∃ depth,
      Program.OccursIn programs depth (.function made) ∧
        (store.chain captured).length = depth + 1
  | .method receiver _ => receiver.Mirrors programs store
  | _ => True

/-- A function that stands at its static depth mirrors the nesting of its program. -/
theorem Value.mirrors_of_nested
    {programs : List Program}
    {store : Store}
    {value : Value}
    (ofValue : (Layout.nested programs).OfValue store value) :
    value.Mirrors programs store := by
  induction value with
  | function function captured => exact ⟨_, ofValue.2, rfl⟩
  | method receiver method ih => exact ih ofValue
  | _ => trivial

/-- Every function in a value was made as a relation says, in the scope that it captured. -/
def Value.Stems (makes : Function → ScopeRef → Prop) : Value → Prop
  | .function made captured => makes made captured
  | .method receiver _ => receiver.Stems makes
  | _ => True

theorem Value.lasting_stems
    (makes : Function → ScopeRef → Prop) :
    Value.Lasting .whole (Value.Stems makes) where
  null := trivial
  undefined := trivial
  void := trivial
  number _ := trivial
  bool _ := trivial
  string _ := trivial
  array _ := iff_of_true trivial trivial
  object _ := iff_of_true trivial trivial
  function _ _ _ := trivial
  method _ _ := Iff.rfl

/-- A relation between functions and their scopes may be weakened. -/
theorem Value.Stems.imp
    {makes others : Function → ScopeRef → Prop}
    (implies : ∀ made captured, makes made captured → others made captured)
    {value : Value}
    (stems : value.Stems makes) :
    value.Stems others := by
  induction value with
  | function made captured => exact implies made captured stems
  | method receiver method ih => exact ih stems
  | _ => trivial

namespace Session

/-- The scopes of a session mirror the nesting of some programs. -/
structure Mirrors (programs : List Program) (session : Session) : Prop where
  installed : session.store.Installed
  values : session.store.AllIn .whole ((Layout.nested programs).OfValue session.store)
  populates : (Layout.nested programs).Populates session.store
  known : session.scope.index < session.store.scopes.size
  root : (session.store.scope session.scope).ancestors = []

variable {programs : List Program} {session : Session}

/-- A fresh session has no functions, and one scope that is around everything. -/
theorem Fresh.mirrors
    (fresh : session.Fresh)
    (programs : List Program) :
    session.Mirrors programs where
  installed := fresh.plain.imp fun _ plain =>
    plain.of_lasting Value.lasting_installed fun _ => id
  values := (Store.all_iff_allIn.1 fresh.plain).imp fun _ plain =>
    plain.of_lasting ((Layout.nested programs).lasting_ofValue _) fun _ _ => trivial
  populates ref _ := .inl (List.cons.inj (fresh.parentless ref)).2
  known := fresh.known
  root := (List.cons.inj (fresh.parentless session.scope)).2

namespace Mirrors

/-- A program of them runs in the scopes of the layout from its beginning. -/
theorem follows
    (mirrors : session.Mirrors programs)
    {program : Program}
    (mem : program ∈ programs) :
    (Layout.nested programs).Follows session.scope
      (Machine.ofProgram program session.scope session.store) := by
  refine Layout.follows_ofProgram mirrors.installed mirrors.values fun statement isStatement => ?_
  refine ⟨mirrors.known, program, mem, ?_⟩
  rw [mirrors.root]
  exact .statement isStatement

variable {State : Type} (host : Host State)

/-- A run of one of the programs leaves scopes that mirror their nesting. -/
theorem runProgram
    (mirrors : session.Mirrors programs)
    {program : Program}
    (mem : program ∈ programs)
    (limit : Nat)
    (state : State) :
    (session.runProgram host limit program session.scope state).2.1.Mirrors programs := by
  have begins := mirrors.follows mem
  have ends := begins.run host limit state
  have grown := Machine.run_extends begins.installed host limit state
  exact
    { installed := ends.installed.store
      values := ends.holds.values.store
      populates := mirrors.populates.run begins host limit state
      known := grown.known mirrors.known
      root := (grown.ancestors _ mirrors.known).trans mirrors.root }

end Mirrors

variable {State : Type} {host : Host State}

/-- The scopes of a session mirror the nesting of the programs that led to it. -/
theorem Reached.mirrors
    (reached : Reached host programs session)
    {others : List Program}
    (among : ∀ program ∈ programs, program ∈ others) :
    session.Mirrors others := by
  induction reached with
  | fresh fresh => exact fresh.mirrors others
  | run program limit state reached ih =>
    have before := ih fun program mem => among program (List.mem_append_left _ mem)
    exact before.runProgram host (among program (by simp)) limit state

/-- Whatever programs have been run and whatever is run now, for however many steps: the code at
hand stands in one of the programs as deep as the chain of the scope at hand is long, but for the
global scope, and so do the functions that any variable, array, object or unfinished operation
holds.  No scope that was ever made has a longer chain than the nesting of the programs allows, so
no search for a name takes more steps.

An expression or statement is told apart from others by its position and its parts, and a run does
not depend on positions (`Machine.Installed.run_relabel`).  A function has no position of its own,
so that empty ones at different depths are the same; how deep the expression is that made it is said
by `exists_visited_of_function`. -/
theorem length_chain_eq_depth
    (reached : Reached host programs session)
    (program : Program)
    (limit : Nat)
    (state : State) :
    let all := programs ++ [program]
    let m := ((Machine.ofProgram program session.scope session.store).run host limit state).1
    (∀ expr, m.control = .evaluate expr →
      ∃ depth, Program.OccursIn all depth (.expr expr) ∧
        (m.store.chain m.scope).length = depth + 1) ∧
    (∀ statement, m.control = .execute statement →
      ∃ depth, Program.OccursIn all depth (.stmt statement) ∧
        (m.store.chain m.scope).length = depth + 1) ∧
    m.All (Value.Mirrors all m.store) ∧
    ∀ greatest,
      (∀ depth node, Program.OccursIn all depth node → depth ≤ greatest) →
      ∀ ref, (m.store.chain ref).length ≤ greatest + 1 := by
  intro all m
  have mirrors : session.Mirrors all :=
    reached.mirrors fun program mem => List.mem_append_left _ mem
  have mem : program ∈ all := by simp [all]
  have begins := mirrors.follows mem
  have follows : (Layout.nested all).Follows session.scope m := begins.run host limit state
  have populates : (Layout.nested all).Populates m.store :=
    mirrors.populates.run begins host limit state
  have ofControl := follows.holds.code.control
  refine ⟨fun expr atHand => ?_, fun statement atHand => ?_,
    Machine.all_iff_allIn.2 (follows.holds.values.imp fun _ => Value.mirrors_of_nested),
    fun greatest bound ref => ?_⟩
  · rw [atHand] at ofControl
    exact ⟨_, ofControl.2, rfl⟩
  · rw [atHand] at ofControl
    exact ⟨_, ofControl.2, rfl⟩
  · have atMost : (m.store.scope ref).ancestors.length ≤ greatest := by
      by_cases known : ref.index < m.store.scopes.size
      · rcases populates ref known with root | ⟨node, runs⟩
        · simp [root]
        · exact bound _ node runs.2
      · simp [Store.scope, Nat.le_of_not_lt known]
    exact Nat.succ_le_succ atMost

/-- In the third call of a function by way of a function inside it, the scope at hand lies directly
inside the global one. -/
theorem length_chain_eq_depth_of_recursion :
    let again : Stmt := .expr .start (.call .start (.name .start "f") [])
    let inner : Expr := .function .start none false [] [again]
    let program : Program :=
      [.expr .start (.function .start (some "f") false []
        [.expr .start (.call .start inner [])]),
      again]
    let m := ((Machine.ofProgram program bare.scope bare.store).run still 42 ()).1
    Reached still [] bare ∧
      m.stack.length = 12 ∧
      m.store.scopes.size = 6 ∧
      (m.store.chain m.scope).length = 2 ∧
      ∃ expr,
        m.control = .evaluate expr ∧
          ∃ depth, Program.OccursIn [program] depth (.expr expr) ∧
            (m.store.chain m.scope).length = depth + 1 := by
  intro again inner program m
  have reached : Reached still [] bare := .fresh fresh_bare
  have mirrors := (length_chain_eq_depth reached program 42 ()).1
  have makes : m.made?.isSome = true := by decide +kernel
  obtain ⟨value, made⟩ := Option.isSome_iff_exists.1 makes
  obtain ⟨expr, function, atHand, isFunction, rfl⟩ := Machine.exists_function_of_made? made
  exact ⟨reached, by decide +kernel, by decide +kernel, by decide +kernel, expr, atHand,
    mirrors expr atHand⟩

/-! ## Where functions come from -/

section Origins

/-- A machine that one of some programs comes to, in a session that those before it lead to. -/
def Visited (host : Host State) (programs : List Program) (m : Machine) : Prop :=
  ∃ before program session limit state,
    before ++ [program] <+: programs ∧
      Reached host before session ∧
      m = ((Machine.ofProgram program session.scope session.store).run host limit state).1

variable {m : Machine}

theorem Visited.mono
    {more : List Program}
    (visited : Visited host programs m)
    (begins : programs <+: more) :
    Visited host more m := by
  obtain ⟨before, program, session, limit, state, early, visit⟩ := visited
  exact ⟨before, program, session, limit, state, early.trans begins, visit⟩

/-- The code at hand stands in one of the programs as deep as there are scopes around the one at
hand. -/
theorem Visited.follows
    (visited : Visited host programs m) :
    ∃ origin, (Layout.nested programs).Follows origin m := by
  obtain ⟨before, program, session, limit, state, early, reached, rfl⟩ := visited
  have mirrors : session.Mirrors programs :=
    reached.mirrors fun program mem => early.subset (List.mem_append_left _ mem)
  exact ⟨_, (mirrors.follows (early.subset (by simp))).run host limit state⟩

/-- A function was made of the expression that was at hand in a machine, in the scope that was at
hand there, and the scopes that there were then are at the same places in their chains. -/
def MadeBefore (host : Host State) (programs : List Program) (store : Store)
    (made : Function) (captured : ScopeRef) : Prop :=
  ∃ earlier,
    Visited host programs earlier ∧
      store.Extends earlier.store ∧
      earlier.made? = some (.function made captured)

/-- What was made before was made before whatever comes later. -/
theorem MadeBefore.mono
    {more : List Program}
    {store later : Store}
    (begins : programs <+: more)
    (grown : later.Extends store)
    {made : Function}
    {captured : ScopeRef}
    (before : MadeBefore host programs store made captured) :
    MadeBefore host more later made captured := by
  obtain ⟨earlier, visited, since, isMade⟩ := before
  exact ⟨earlier, visited.mono begins, grown.trans since, isMade⟩

/-- Functions stay made before in the next machine, and so is the one that is made in it. -/
theorem Visited.advance_madeBefore
    (visited : Visited host programs m)
    (values : m.AllIn .whole (Value.Stems (MadeBefore host programs m.store)))
    (state : State) :
    (m.advance host state).1.AllIn .whole
      (Value.Stems (MadeBefore host programs (m.advance host state).1.store)) := by
  obtain ⟨origin, follows⟩ := visited.follows
  rcases follows.installed.advance_eq host state with steps | ⟨answer, next, plain, answers⟩
  · rw [steps]
    have grown := m.step_extends
    have stays := values.imp fun _ stems =>
      stems.imp fun _ _ before => before.mono List.prefix_rfl grown
    refine stays.step (Value.lasting_stems _) (fun _ _ => trivial) (fun _ _ => trivial)
      fun value made => ?_
    obtain ⟨expr, function, atHand, isFunction, rfl⟩ := Machine.exists_function_of_made? made
    exact ⟨m, visited, grown, made⟩
  · rw [answers]
    simp only [Machine.store_answer]
    exact values.answer (plain _ _ (Value.lasting_stems _).steady)

/-- Every function that a run comes across was made before. -/
theorem Reached.run_madeBefore
    (reached : Reached host programs session)
    (ofStore : session.store.AllIn .whole (Value.Stems (MadeBefore host programs session.store)))
    (program : Program)
    (limit : Nat)
    (state : State) :
    let m := ((Machine.ofProgram program session.scope session.store).run host limit state).1
    m.AllIn .whole (Value.Stems (MadeBefore host (programs ++ [program]) m.store)) := by
  have begins : programs <+: programs ++ [program] := List.prefix_append _ _
  induction limit with
  | zero =>
    have stays := ofStore.imp fun _ stems =>
      stems.imp fun _ _ before => before.mono begins (.refl _)
    exact ⟨trivial, by simp [Machine.ofProgram], stays⟩
  | succ limit ih =>
    intro m
    cases going :
      ((Machine.ofProgram program session.scope session.store).run host limit
        state).1.outcome? with
    | some outcome =>
      simp only [m, Machine.run_add, Machine.run_of_isSome (by rw [going]; rfl)]
      exact ih
    | none =>
      simp only [m, Machine.run_succ limit going]
      exact Visited.advance_madeBefore ⟨_, _, _, _, _, List.prefix_rfl, reached, rfl⟩ ih _

/-- Whatever programs have been run, every function that they left was made before. -/
theorem Reached.madeBefore
    (reached : Reached host programs session) :
    session.store.AllIn .whole (Value.Stems (MadeBefore host programs session.store)) := by
  induction reached with
  | fresh fresh =>
    exact (Store.all_iff_allIn.1 fresh.plain).imp fun _ plain =>
      plain.of_lasting (Value.lasting_stems _) fun _ _ => trivial
  | run program limit state reached ih =>
    exact (reached.run_madeBefore ih program limit state).store

/-- Whatever programs have been run and whatever is run now, for however many steps: every function
that any variable, array, object or unfinished operation holds was made when an expression for it
was at hand in the scope that it captured, and the chain of that scope is as long as this expression
is deep in its program, but for the global scope. -/
theorem exists_visited_of_function
    (reached : Reached host programs session)
    (program : Program)
    (limit : Nat)
    (state : State) :
    let all := programs ++ [program]
    let m := ((Machine.ofProgram program session.scope session.store).run host limit state).1
    m.All (Value.Stems fun made captured =>
      ∃ earlier expr depth,
        Visited host all earlier ∧
          earlier.control = .evaluate expr ∧
          earlier.scope = captured ∧
          expr.function? = some made ∧
          Program.OccursIn all depth (.expr expr) ∧
          (m.store.chain captured).length = depth + 1) := by
  intro all m
  have values := reached.run_madeBefore reached.madeBefore program limit state
  refine Machine.all_iff_allIn.2 (values.imp fun _ stems => stems.imp ?_)
  rintro function captured ⟨earlier, visited, since, made⟩
  obtain ⟨expr, _, atHand, isFunction, same⟩ := Machine.exists_function_of_made? made
  cases same
  obtain ⟨origin, follows⟩ := visited.follows
  have runs := follows.holds.code.control
  rw [atHand] at runs
  have same : m.store.chain earlier.scope = earlier.store.chain earlier.scope := by
    rw [Store.chain, since.ancestors _ runs.1, Store.chain]
  refine ⟨earlier, expr, _, visited, atHand, rfl, isFunction, runs.2, ?_⟩
  rw [same]
  rfl

end Origins

end Session
end TinyScript
