import TinyScript.Proofs.Machine.Layout
import TinyScript.Proofs.Machine.Stack
import TinyScript.Proofs.Session.Reached
import TinyScript.Proofs.Store.Bindings
import TinyScript.Proofs.Syntax.Quiet

/-!
# Loops and calls keep to scopes of their own

Loops and calls bind their names in scopes that are made for them, and not in any that has been
there before (`protection?_run_of_enters`).  The code of a function can go on in an older scope
only to find a default for a parameter, so the defaults have to be quiet.
-/

namespace TinyScript

/-- A node may be run in a scope if it is quiet, or if the scope is one of those from some number
on. -/
structure Node.Hygienic (oldest : Nat) (store : Store) (scope : ScopeRef) (node : Node) : Prop where
  known : scope.index < store.scopes.size
  reached : oldest ≤ store.scopes.size
  tidy : node.HasQuietDefaults
  quiet : scope.index < oldest → node.isQuiet = true

/-- Quiet code is hygienic with respect to every store that it is begun in later. -/
theorem Node.Hygienic.mono
    {oldest later : Nat}
    {store : Store}
    {scope : ScopeRef}
    {node : Node}
    (hygienic : node.Hygienic oldest store scope)
    (reached : later ≤ store.scopes.size)
    (quiet : node.isQuiet = true) :
    node.Hygienic later store scope :=
  { hygienic with
    reached := reached
    quiet := fun _ => quiet }

/-- The layout in which only quiet code runs in the scopes up to some number. -/
def Layout.hygienic (oldest : Nat) : Layout where
  region := .whole
  Runs store scope node := node.Hygienic oldest store scope
  within _ := trivial
  grows grown hygienic :=
    { hygienic with
      known := grown.known hygienic.known
      reached := Nat.le_trans hygienic.reached grown.size }
  part hygienic isPart :=
    { hygienic with
      tidy := hygienic.tidy.part isPart
      quiet := fun old => hygienic.tidy.isQuiet_part (hygienic.quiet old) isPart }
  inside := by
    intro store scope whole part hygienic isInside
    exact
      { known := store.newChild_known scope
        reached := Nat.le_trans hygienic.reached (store.extends_newChild scope).size
        tidy := hygienic.tidy.inside isInside
        quiet := fun old => absurd hygienic.reached (Nat.not_le_of_lt old) }

namespace Machine

variable {m : Machine} {oldest : Nat}

/-- A machine that gives a value has come back to the scope at hand. -/
theorem floor_of_give
    {value : Value}
    (gives : m.control = .give value) :
    m.floor = m.scope := by
  simp only [floor, gives]

/-- A step of such code neither binds nor protects a name in any of the older scopes. -/
theorem protection?_step
    (holds : (Layout.hygienic oldest).Holds m)
    {ref : ScopeRef}
    (old : ref.index < oldest)
    (name : String) :
    m.step.store.protection? ref name = m.store.protection? ref name := by
  have ofControl := holds.code.control
  have ofStack := holds.code.stack
  cases Edits.step m with
  | keep same => exact Store.protection?_of_scopes_eq same ref name
  | assign assigned value possible same =>
    rw [Store.protection?_of_scopes_eq same]
    refine Store.protection?_assign ?_ name value
    rintro rfl
    refine possible.resolve_right ?_
    rintro ⟨_, rest, gives, atHand⟩
    rw [atHand, floor_of_give gives] at ofStack
    obtain ⟨_, _, _, runs⟩ := ofStack.1
    cases runs.quiet old
  | makeFunction value atHand same =>
    rw [Store.protection?_of_scopes_eq same]
    rw [atHand] at ofControl
    refine Store.protection?_declare_of_ne ?_ m.store name _ value true
    rintro rfl
    cases ofControl.quiet old
  | declare value constant gives atHand same =>
    rw [Store.protection?_of_scopes_eq same]
    rw [atHand, floor_of_give gives] at ofStack
    obtain ⟨_, _, runs⟩ := ofStack.1
    refine Store.protection?_declare_of_ne ?_ m.store name _ value constant
    rintro rfl
    cases runs.quiet old
  | bindMissing atHand same =>
    rw [Store.protection?_of_scopes_eq same]
    rw [atHand] at ofControl
    refine Store.protection?_declare_of_ne ?_ m.store name _ _ _
    rintro rfl
    cases ofControl.body.quiet old
  | bindDefault value atHand same =>
    rw [Store.protection?_of_scopes_eq same]
    rw [atHand] at ofStack
    refine Store.protection?_declare_of_ne ?_ m.store name _ value _
    rintro rfl
    cases ofStack.1.body.quiet old
  | openLoop atHand same =>
    rw [Store.protection?_of_scopes_eq same]
    rw [atHand] at ofControl
    exact Store.protection?_newChild (Nat.lt_of_lt_of_le old ofControl.reached) m.scope name
  | openCall atHand same =>
    have ofCallee := holds.values.control
    rw [atHand] at ofCallee
    have known := Nat.lt_of_lt_of_le old ofCallee.1.reached
    rw [Store.protection?_of_scopes_eq same, Store.protection?_bindArguments_of_ne]
    · exact Store.protection?_newChild known _ name
    · rintro rfl
      exact Nat.lt_irrefl _ known

variable {State : Type}

/-- A hygienic run protects and unprotects nothing in the older scopes. -/
theorem protection?_run
    {origin : ScopeRef}
    (follows : (Layout.hygienic oldest).Follows origin m)
    (host : Host State)
    (limit : Nat)
    (state : State)
    {ref : ScopeRef}
    (old : ref.index < oldest)
    (name : String) :
    (m.run host limit state).1.store.protection? ref name = m.store.protection? ref name :=
  follows.run_store (p := fun store => store.protection? ref name = m.store.protection? ref name)
    host (fun _ holds same => (protection?_step holds old name).trans same) rfl limit state

/-- A machine that does only what it does at the moment, and nothing that follows. -/
def alone (m : Machine) : Machine :=
  { m with stack := [] }

/-- A machine is one that is alone, on top of its stack. -/
theorem under_alone
    (m : Machine) :
    m.alone.under m.stack = m :=
  rfl

end Machine

/-- A machine executes a `for` statement next, or calls a function of a program with arguments that
are known. -/
def Control.enters : Control → Bool
  | .execute (.forLoop _ _ _ _ _) => true
  | .apply (.function _ _) _ _ => true
  | _ => false

namespace Layout

/-- Values may be used whatever number of scopes is old. -/
theorem OfValue.mono
    {oldest later : Nat}
    {store : Store}
    (reached : later ≤ store.scopes.size)
    {value : Value}
    (ofValue : (hygienic oldest).OfValue store value) :
    (hygienic later).OfValue store value := by
  induction value with
  | function function captured => exact Node.Hygienic.mono ofValue reached rfl
  | method receiver method ih => exact ih ofValue
  | _ => trivial

variable {m : Machine} {oldest : Nat} {origin : ScopeRef}

/-- All scopes are old ones to a loop or a call that begins. -/
theorem Follows.alone
    (follows : (hygienic oldest).Follows origin m)
    (enters : m.control.enters = true) :
    (hygienic m.store.scopes.size).Follows m.scope m.alone := by
  have reached : m.store.scopes.size ≤ m.store.scopes.size := Nat.le_refl _
  have values : m.AllIn .whole ((hygienic m.store.scopes.size).OfValue m.store) :=
    follows.holds.values.imp fun _ => OfValue.mono reached
  have ofControl := follows.holds.code.control
  obtain ⟨control, scope, stack, store⟩ := m
  refine ⟨⟨⟨?_, trivial⟩, ⟨values.control, by simp [Machine.alone], values.store⟩⟩,
    ⟨follows.installed.control, by simp [Machine.alone], follows.installed.store⟩, ?_⟩
  · cases control with
    | execute statement =>
      cases statement with
      | forLoop position start test update body => exact Node.Hygienic.mono ofControl reached rfl
      | _ => cases enters
    | apply callee arguments position => trivial
    | _ => cases enters
  · cases control with
    | execute statement => exact ⟨.inr trivial, trivial, rfl⟩
    | apply callee arguments position => exact ⟨trivial, trivial, rfl⟩
    | _ => cases enters

end Layout

namespace Session

/-- The defaults of all functions in a session are quiet. -/
structure Tidy (session : Session) : Prop where
  installed : session.store.Installed
  known : session.scope.index < session.store.scopes.size
  values : session.store.AllIn .whole ((Layout.hygienic 0).OfValue session.store)

/-- A fresh session has no functions, and so none with defaults that are not quiet. -/
theorem Fresh.tidy
    {session : Session}
    (fresh : session.Fresh) :
    session.Tidy where
  installed := fresh.plain.imp fun _ plain =>
    plain.of_lasting Value.lasting_installed fun _ => id
  known := fresh.known
  values := (Store.all_iff_allIn.1 fresh.plain).imp fun _ plain =>
    plain.of_lasting ((Layout.hygienic 0).lasting_ofValue _) fun _ _ => trivial

variable {State : Type} {host : Host State} {session : Session} {program : Program}

/-- A program with quiet defaults is run hygienically in a tidy session. -/
theorem Tidy.follows
    (tidy : session.Tidy)
    (quiet : Stmt.allEverywhere Expr.hasQuietDefaults program = true) :
    (Layout.hygienic 0).Follows session.scope
      (Machine.ofProgram program session.scope session.store) :=
  Layout.follows_ofProgram tidy.installed tidy.values fun _ mem =>
    { known := tidy.known
      reached := Nat.zero_le _
      tidy := ⟨Stmt.everywhere_of_mem quiet mem, by simp⟩
      quiet := fun none => absurd none (Nat.not_lt_zero _) }

/-- Programs with quiet defaults lead to a tidy session. -/
theorem Reached.tidy
    {programs : List Program}
    (reached : Reached host programs session)
    (quiet : ∀ program ∈ programs,
      Stmt.allEverywhere Expr.hasQuietDefaults program = true) :
    session.Tidy := by
  induction reached with
  | fresh fresh => exact fresh.tidy
  | @run programs session program limit state reached ih =>
    have before := ih fun program mem => quiet program (List.mem_append_left _ mem)
    have begins := before.follows (quiet program (by simp))
    have ends := begins.run host limit state
    have grown := Machine.run_extends begins.installed host limit state
    exact
      { installed := ends.installed.store
        known := grown.known before.known
        values := ends.holds.values.store }

/-- Whatever programs have been run and whatever is run now: if the defaults of all parameters in
them are quiet, then a scope that is there when a `for` statement or a call of a function begins
binds the same names, and protects the same ones of them, from then on until the statement or the
call is over, whether it completes, returns or fails.

Until then the run does what the statement or the call does by itself, above everything that is to
follow. -/
theorem protection?_run_of_enters
    {programs : List Program}
    (reached : Reached host programs session)
    (quiet : ∀ other ∈ programs ++ [program],
      Stmt.allEverywhere Expr.hasQuietDefaults other = true)
    (limit : Nat)
    (state : State) :
    let moment := (Machine.ofProgram program session.scope session.store).run host limit state
    let m := moment.1
    m.control.enters = true →
      ∀ count,
        (∀ ref name, ref.index < m.store.scopes.size →
          (m.alone.run host count moment.2).1.store.protection? ref name =
            m.store.protection? ref name) ∧
        ∃ steps ≤ count,
          (steps = count ∨ (m.alone.run host steps moment.2).1.outcome?.isSome) ∧
            m.run host steps moment.2 =
              ((m.alone.run host steps moment.2).1.under m.stack,
                (m.alone.run host steps moment.2).2) := by
  intro moment m enters count
  have tidy : session.Tidy :=
    reached.tidy fun program mem => quiet program (List.mem_append_left _ mem)
  have follows : (Layout.hygienic 0).Follows session.scope m :=
    (tidy.follows (quiet program (by simp))).run host limit state
  refine ⟨fun ref name old =>
    Machine.protection?_run (follows.alone enters) host count moment.2 old name, ?_⟩
  obtain ⟨steps, bound, stops, same⟩ :=
    Machine.exists_run_under (m := m.alone) host count moment.2
  have above := same m.stack
  rw [Machine.under_alone] at above
  exact ⟨steps, bound, stops, above⟩

/-- A call binds its parameters, one of them to a default, and a name that is assigned to, all in
its own scope, and then fails. -/
theorem protection?_run_of_enters_of_failing :
    let made : Function :=
      { name := some "f"
        exported := false
        parameters := [.required "a", .optional "b" (.name .start "f")]
        body :=
          [.expr .start (.assign .start (.name .start "c") (.name .start "b")),
            .expr .start (.call .start (.name .start "a") [])] }
    let program : Program :=
      [.expr .start (.function .start (some "f") false made.parameters made.body),
        .expr .start (.call .start (.name .start "f") [.bool .start true])]
    let moment := (Machine.ofProgram program standard.scope standard.store).run still 11 ()
    let m := moment.1
    let later := (m.alone.run still 20 moment.2).1
    Reached still [] standard ∧
      (∀ other ∈ [] ++ [program],
        Stmt.allEverywhere Expr.hasQuietDefaults other = true) ∧
      m.control.enters = true ∧
      later.outcome?.isSome ∧
      later.store.protection? ⟨m.store.scopes.size⟩ "b" = some false ∧
      later.store.protection? ⟨m.store.scopes.size⟩ "c" = some false ∧
      later.store.protection? standard.scope "c" = m.store.protection? standard.scope "c" := by
  intro made program moment m later
  have reached : Reached still [] standard := .fresh fresh_standard
  have quiet : ∀ other ∈ [] ++ [program],
      Stmt.allEverywhere Expr.hasQuietDefaults other = true := by
    simpa using (by decide +kernel : Stmt.allEverywhere Expr.hasQuietDefaults program = true)
  have enters : m.control.enters = true := by decide +kernel
  have frame := (protection?_run_of_enters reached quiet 11 () enters 20).1
  have known : standard.scope.index < m.store.scopes.size := by decide +kernel
  have same := frame standard.scope "c" known
  refine ⟨reached, quiet, enters, by decide +kernel, by decide +kernel, by decide +kernel, ?_⟩
  dsimp only [later, m, moment]
  exact same

end Session
end TinyScript
