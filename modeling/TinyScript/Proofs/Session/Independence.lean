import TinyScript.Proofs.Machine.Enlarging
import TinyScript.Proofs.Machine.Preface
import TinyScript.Proofs.Session.Reached
import TinyScript.Proofs.Store.Inlay

/-!
# Programs that do not mention the library

The library puts two objects in front of those of a program, and its names in front of those of the
global scope.  A program in which none of these names stands runs alike with the library and without
it, but that its own objects stand two places further (`runSource_standard_eq_bare`).
-/

namespace TinyScript

namespace Library

/-- The objects of the library in front of those of a program. -/
def inlay : Inlay where
  arraysAt := 0
  arrays := #[]
  objectsAt := 0
  objects := #[ioProperties, mathProperties]

/-- What the library binds its names to. -/
def front : List (String × Binding) :=
  (bindings ⟨0⟩ ⟨1⟩).map fun (name, value) => (name, { value := value, constant := true })

/-- The names of the library, in the order in which they are bound. -/
def names : List String :=
  front.map (·.1)

example : names = ["length", "int", "float", "string", "exit", "null", "io", "math"] :=
  rfl

end Library

namespace Session

/-- A result whose references are to other places. -/
def Result.relocate (relocation : Relocation) : Result → Result
  | .value given => .value (given.relocate relocation)
  | result => result

/-- The snippet of a diagnostic does not depend on where things are kept. -/
theorem Result.illustrate_relocate
    (relocation : Relocation)
    (source : String)
    (result : Result) :
    (result.relocate relocation).illustrate source =
      (result.illustrate source).relocate relocation := by
  cases result <;> rfl

/-- A run in a larger store has the same result, at the corresponding places. -/
theorem resultOf_enlarge
    (larger : Enlargement)
    (m : Machine) :
    resultOf (m.enlarge larger) = (resultOf m).relocate larger.toRelocation := by
  rw [resultOf, Machine.outcome?_enlarge, resultOf]
  cases m.outcome? with
  | none => rfl
  | some outcome => cases outcome <;> rfl

/-! ## The library is an inlay and a preface -/

/-- The objects of the library are what an inlay adds to a session without it. -/
theorem around_bare :
    bare.store.around Library.inlay =
      ((bare.store.newObject Library.ioProperties).2.newObject Library.mathProperties).2 := by
  simp [Store.around, Scope.relocate, putAmong, Library.inlay, bare, Store.newRoot,
    Store.newObject, Store.empty]

/-- The session with the library has the names of it in front, and its objects as an inlay. -/
theorem standard_eq :
    standard =
      { bare with
        store := (bare.store.around Library.inlay).preface bare.scope Library.front } := by
  rw [around_bare]
  rfl

/-- The library brings data and its own functions. -/
theorem all_around_bare
    {p : Value → Prop}
    (steady : Value.Steady .whole p)
    (natives : ∀ native, (Value.native native).Installed → p (.native native)) :
    (bare.store.around Library.inlay).AllIn .whole p := by
  rw [around_bare]
  exact ((Store.all_iff_allIn.1 all_bare).newObject (Library.all_ioProperties natives)).newObject
    (Library.all_mathProperties steady natives)

variable {State : Type} (host : Host State)

/-- A program in which no name of the library stands takes the same course with the library and
without it: the objects that it makes stand behind those of the library, and its names behind the
names of the library. -/
theorem run_ofProgram_standard
    {program : Program}
    (avoids : Stmt.allEverywhere (Expr.avoids Library.names) program = true)
    (limit : Nat)
    (state : State) :
    let alone := (Machine.ofProgram program bare.scope bare.store).run host limit state
    (Machine.ofProgram program standard.scope standard.store).run host limit state =
      ((alone.1.enlarge (.around Library.inlay)).preface bare.scope Library.front, alone.2) := by
  intro alone
  let around := Machine.ofProgram program bare.scope (bare.store.around Library.inlay)
  have installed := Machine.installed_ofProgram installed_bare program bare.scope
  have fits : (Enlargement.around Library.inlay).Fits bare.store :=
    ⟨Nat.zero_le _, Nat.zero_le _⟩
  have ofAround : around.run host limit state =
      (alone.1.enlarge (.around Library.inlay), alone.2) :=
    installed.run_enlarge fits host limit state
  have installedToo : (bare.store.around Library.inlay).Installed :=
    Store.all_iff_allIn.2 (all_around_bare Value.lasting_installed.steady fun _ given => given)
  have known : bare.scope.index < (bare.store.around Library.inlay).scopes.size := by
    simpa [Store.around] using fresh_bare.known
  have functions :
      (bare.store.around Library.inlay).AllIn .whole fun value =>
        value.Everywhere (Expr.avoids Library.names) ∧ Region.whole.Holds value :=
    (all_around_bare Value.lasting_plain.steady plain_of_installed).imp fun value plain =>
      ⟨plain.everywhere _, Region.holds_whole value⟩
  have follows : (Layout.passing .whole _ bare.scope).Follows bare.scope around :=
    Layout.follows_ofProgram_of_passes installedToo known functions trivial avoids
  calc
    (Machine.ofProgram program standard.scope standard.store).run host limit state =
        (around.preface bare.scope Library.front).run host limit state := by
      rw [standard_eq]
      rfl
    _ = _ := by rw [Machine.run_preface host follows known, ofAround]

/-- A program in which no name of the library stands does the same, for as many steps as it is run,
with the library and without it.  It comes to the same diagnostic, to the same value or is not over
yet, and the surroundings and the output are the same.  Its values are the same, but that the
objects that it makes stand behind those of the library; they have the same types and texts.  The
global scope binds the same names behind those of the library, in the same order, to the same values
as constants or variables. -/
theorem runSource_standard_eq_bare
    {source : String}
    (avoids : ∀ program, Program.ofSource source = .ok program →
      Stmt.allEverywhere (Expr.avoids Library.names) program = true)
    (limit : Nat)
    (state : State) :
    let alone := bare.runSource host limit source state
    let beside := standard.runSource host limit source state
    beside.1 = alone.1.relocate (.around Library.inlay) ∧
      beside.2.2 = alone.2.2 ∧
      beside.2.1.store.output = alone.2.1.store.output ∧
      (∀ value : Value,
        (value.around Library.inlay).typeTag = value.typeTag ∧
          beside.2.1.store.display (value.around Library.inlay) =
            alone.2.1.store.display value) ∧
      (beside.2.1.store.scope standard.scope).bindings.entries =
        Library.front ++ (alone.2.1.store.scope bare.scope).bindings.entries.map
          fun (name, binding) => (name, binding.around Library.inlay) := by
  -- What a session with the library shows, whatever the one without it has come to.
  have shows : ∀ store : Store, bare.scope.index < store.scopes.size →
      let beside := (store.around Library.inlay).preface bare.scope Library.front
      (∀ value : Value,
        (value.around Library.inlay).typeTag = value.typeTag ∧
          beside.display (value.around Library.inlay) = store.display value) ∧
        (beside.scope bare.scope).bindings.entries =
          Library.front ++ (store.scope bare.scope).bindings.entries.map
            fun (name, binding) => (name, binding.around Library.inlay) := by
    intro store known beside
    have fits : Library.inlay.Fits store := ⟨Nat.zero_le _, Nat.zero_le _⟩
    have knownToo : bare.scope.index < (store.around Library.inlay).scopes.size := by
      simpa [Store.around] using known
    refine ⟨fun value => ⟨Value.typeTag_disguise _ value, ?_⟩, ?_⟩
    · rw [((store.around Library.inlay).sameHeap_preface).display]
      exact (Store.disguised_around fits).display value
    · rw [Store.scope_preface_home _ knownToo, Store.scope_around]
      rfl
  cases parses : Program.ofSource source with
  | error diagnostic =>
    simp only [runSource, parses, standard_eq]
    exact ⟨rfl, trivial, rfl, shows bare.store fresh_bare.known⟩
  | ok program =>
    have installed := Machine.installed_ofProgram installed_bare program bare.scope
    have known := (Machine.run_extends installed host limit state).known fresh_bare.known
    have sameRun := run_ofProgram_standard host (avoids program parses) limit state
    simp only [runSource, parses, runProgram, runMachine, sameRun]
    refine ⟨?_, trivial, rfl, shows _ known⟩
    rw [← Result.illustrate_relocate]
    exact congrArg _ (resultOf_enlarge _ _)

/-- Properties may have the names of the library, and so may texts in which no braces stand around
them.  The object that the function returns has another place beside the library. -/
theorem runSource_standard_eq_bare_of_debug :
    let source :=
      "f = fn(a) \x7b return \x7b math: [a, '\x7ba\x7d{ io }'] \x7d \x7d\ndebug f(true).math\nf(0)"
    let alone := bare.runSource still 90 source ()
    let beside := standard.runSource still 90 source ()
    (∃ program, Program.ofSource source = .ok program) ∧
      (∀ program, Program.ofSource source = .ok program →
        Stmt.allEverywhere (Expr.avoids Library.names) program = true) ∧
      beside.1 = alone.1.relocate (.around Library.inlay) ∧
      beside.2.1.store.output = alone.2.1.store.output ∧
      (beside.2.1.store.scope standard.scope).bindings.entries =
        Library.front ++ (alone.2.1.store.scope bare.scope).bindings.entries.map
          (fun (name, binding) => (name, binding.around Library.inlay)) ∧
      (alone.2.1.store.scope bare.scope).bindings.keys = ["f"] ∧
      alone.2.1.store.output.text = "DEBUG: [true, 'true{ io }']\n" := by
  intro source alone beside
  obtain ⟨program, parses, passes⟩ :
      ∃ program, Program.ofSource source = .ok program ∧
        Stmt.allEverywhere (Expr.avoids Library.names) program = true :=
    exists_ok_of_any (by decide +kernel)
  have avoids : ∀ program, Program.ofSource source = .ok program →
      Stmt.allEverywhere (Expr.avoids Library.names) program = true := by
    intro other parsesOther
    cases parses.symm.trans parsesOther
    exact passes
  obtain ⟨result, _, output, _, names⟩ := runSource_standard_eq_bare still avoids 90 ()
  exact ⟨⟨program, parses⟩, avoids, result, output, names, by decide +kernel,
    by decide +kernel⟩

end Session
end TinyScript
