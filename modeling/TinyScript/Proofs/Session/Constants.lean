import TinyScript.Proofs.Machine.Layout
import TinyScript.Proofs.Session.Reached
import TinyScript.Proofs.Store.Bindings
import TinyScript.Proofs.Store.Reachable

/-!
# Constants are protected

A constant of a scope keeps its value, and remains a constant, as long as no code declares
its name: assignments and steps leave it as it is, and parameters and the names of calls and
loops are bound in scopes of their own (`binding?_runSource_of_constant`).
-/

namespace TinyScript

/-- An expression neither declares a name nor is a function of that name. -/
def Expr.spares (name : String) : Expr → Bool
  | .declare _ _ declared _ => declared ≠ name
  | .function _ label _ _ _ => label ≠ some name
  | _ => true

variable {name : String} {region : Region} {home : ScopeRef} {value : Value}

namespace Machine

variable {m : Machine}

/-- No step of code that spares a name changes the constant that a scope binds it to. -/
theorem binding?_step_of_constant
    (holds : (Layout.passing region (Expr.spares name) home).Holds m)
    (bound : m.store.binding? home name = some { value := value, constant := true }) :
    m.step.store.binding? home name = some { value := value, constant := true } := by
  have known := Store.known_of_binding? bound
  have ofControl := holds.code.control
  have ofStack := holds.code.stack
  rw [← bound]
  cases Edits.step m with
  | keep same => exact Store.binding?_of_scopes_eq same home name
  | assign assigned given _ same =>
    rw [Store.binding?_of_scopes_eq same]
    exact Store.binding?_assign_of_constant bound m.scope assigned given
  | makeFunction given atHand same =>
    rw [Store.binding?_of_scopes_eq same]
    rw [atHand] at ofControl
    have spares := Layout.passes_of_runs ofControl
    refine Store.binding?_declare_of_ne (fun _ sameName => ?_) m.store given true
    simp [Expr.spares, sameName] at spares
  | declare given constant _ atHand same =>
    rw [Store.binding?_of_scopes_eq same]
    rw [atHand] at ofStack
    obtain ⟨_, _, runs⟩ := ofStack.1
    have spares := Layout.passes_of_runs runs
    refine Store.binding?_declare_of_ne (fun _ sameName => ?_) m.store given constant
    simp [Expr.spares, sameName] at spares
  | bindMissing atHand same =>
    rw [Store.binding?_of_scopes_eq same]
    rw [atHand] at ofControl
    have apart := Layout.OfCall.apart ofControl
    exact Store.binding?_declare_of_ne (fun sameScope => absurd sameScope.symm apart) m.store _ _
  | bindDefault given atHand same =>
    rw [Store.binding?_of_scopes_eq same]
    rw [atHand] at ofStack
    have apart := Layout.OfCall.apart ofStack.1
    exact Store.binding?_declare_of_ne (fun sameScope => absurd sameScope.symm apart) m.store _ _
  | openLoop _ same =>
    rw [Store.binding?_of_scopes_eq same]
    exact Store.binding?_newChild known m.scope name
  | openCall _ same =>
    rw [Store.binding?_of_scopes_eq same, Store.binding?_bindArguments_of_ne]
    · exact Store.binding?_newChild known _ name
    · rintro rfl
      exact Nat.lt_irrefl _ known

variable {State : Type} {origin : ScopeRef} (host : Host State)

/-- No advance of code that spares a name changes the constant that a scope binds it to. -/
theorem binding?_advance_of_constant
    (follows : (Layout.passing region (Expr.spares name) home).Follows origin m)
    (bound : m.store.binding? home name = some { value := value, constant := true })
    (state : State) :
    (m.advance host state).1.store.binding? home name =
      some { value := value, constant := true } := by
  rcases follows.installed.store_advance host state with steps | same
  · rw [steps]
    exact binding?_step_of_constant follows.holds bound
  · rw [same]
    exact bound

/-- No run of code that spares a name changes the constant that a scope binds it to. -/
theorem binding?_run_of_constant
    (follows : (Layout.passing region (Expr.spares name) home).Follows origin m)
    (bound : m.store.binding? home name = some { value := value, constant := true })
    (limit : Nat)
    (state : State) :
    (m.run host limit state).1.store.binding? home name =
      some { value := value, constant := true } := by
  have both :=
    run_preserves
      (p := fun m =>
        (Layout.passing region (Expr.spares name) home).Follows origin m ∧
          m.store.binding? home name = some { value := value, constant := true })
      host
      (fun _ state ⟨follows, bound⟩ =>
        ⟨follows.advance host state, binding?_advance_of_constant host follows bound state⟩)
      ⟨follows, bound⟩ limit state
  exact both.2

end Machine

namespace Session

variable {State : Type} (host : Host State)

/-- A constant of the global scope stays the same constant whatever source is run, and however its
run ends, if neither the source nor a function that the global scope leads to declares its name. -/
theorem binding?_runSource_of_constant
    {session : Session}
    (installed : session.store.Installed)
    (bound : session.store.binding? session.scope name =
      some { value := value, constant := true })
    (functions : ∀ known, session.store.Reaches session.scope known →
      known.Everywhere (Expr.spares name))
    {source : String}
    (spares : ∀ program, Program.ofSource source = .ok program →
      Stmt.allEverywhere (Expr.spares name) program = true)
    (limit : Nat)
    (state : State) :
    let later := (session.runSource host limit source state).2.1
    later.scope = session.scope ∧
      later.store.binding? later.scope name = some { value := value, constant := true } := by
  unfold runSource
  cases parses : Program.ofSource source with
  | error diagnostic => exact ⟨rfl, bound⟩
  | ok program =>
    have follows := Layout.follows_ofProgram_of_passes installed (Store.known_of_binding? bound)
      (Store.allIn_reach fun known reaches => ⟨functions known reaches, reaches.holds⟩)
      (.inl .home) (spares program parses)
    exact ⟨rfl, Machine.binding?_run_of_constant host follows bound limit state⟩

theorem binding?_runSource_of_constant_of_shadows :
    let source :=
      "math = null\nf = fn(math) \x7b math++ \x7d\nf(math.PI = io)"
    let bound : Binding := { value := .object ⟨1⟩, constant := true }
    let later := (standard.runSource still 100 source ()).2.1
    standard.store.Installed ∧
      standard.store.binding? standard.scope "math" = some bound ∧
      (∀ known, standard.store.Reaches standard.scope known →
        known.Everywhere (Expr.spares "math")) ∧
      (∃ program, Program.ofSource source = .ok program) ∧
      (∀ program, Program.ofSource source = .ok program →
        Stmt.allEverywhere (Expr.spares "math") program = true) ∧
      later.store.binding? later.scope "math" = some bound := by
  intro source bound later
  have isBound : standard.store.binding? standard.scope "math" = some bound := rfl
  have functions : ∀ known, standard.store.Reaches standard.scope known →
      known.Everywhere (Expr.spares "math") := fun known reaches =>
    (reaches.of_all fresh_standard.plain fun _ _ => id).everywhere _
  obtain ⟨program, parses, passes⟩ :
      ∃ program, Program.ofSource source = .ok program ∧
        Stmt.allEverywhere (Expr.spares "math") program = true :=
    exists_ok_of_any (by decide +kernel)
  have spares : ∀ program, Program.ofSource source = .ok program →
      Stmt.allEverywhere (Expr.spares "math") program = true := by
    intro other parsesOther
    cases parses.symm.trans parsesOther
    exact passes
  exact ⟨installed_standard, isBound, functions, ⟨program, parses⟩, spares,
    (binding?_runSource_of_constant still installed_standard isBound functions spares 100 ()).2⟩

end Session
end TinyScript
