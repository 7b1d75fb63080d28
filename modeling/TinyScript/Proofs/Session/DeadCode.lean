import TinyScript.Proofs.Machine.Pruning
import TinyScript.Proofs.Session.Reached

/-!
# Dead code

Nobody can tell whether a program has statements behind a `return` of their own list: without
them it comes to the same, in as many steps, writes the same, and leaves names that look the same
(`runProgram_pruned`).
-/

namespace TinyScript

/-! ## Stores without functions of a program -/

theorem array_map_eq_self
    {α : Type}
    {change : α → α}
    {items : Array α}
    (each : ∀ item ∈ items, change item = item) :
    items.map change = items :=
  (Array.map_congr_left each).trans (Array.map_id items)

/-- A table is left as it is by a change that changes none of its values. -/
theorem Table.All.map_eq_self
    {α : Type}
    {table : Table α}
    {change : α → α}
    (all : table.All fun value => change value = value) :
    table.map change = table := by
  obtain ⟨entries⟩ := table
  have sameEntries : entries.map (fun entry => (entry.1, change entry.2)) = entries :=
    TinyScript.map_eq_self fun entry mem => Prod.ext rfl (all entry mem)
  exact congrArg Table.mk sameEntries

variable (recoding : Recoding)

/-- There is no code to rewrite in a plain value. -/
theorem Value.Plain.recode_eq_self
    {value : Value}
    (plain : value.Plain) :
    value.recode recoding = value := by
  induction value with
  | function made captured => exact plain.elim
  | method receiver method ih => exact congrArg (Value.method · method) (ih plain)
  | _ => rfl

/-- Recoding changes nothing in a store without functions of a program. -/
theorem Store.recode_eq_self
    {store : Store}
    (plain : store.All Value.Plain) :
    store.recode recoding = store := by
  have sameScopes : store.scopes.map (Scope.recode recoding) = store.scopes := by
    refine array_map_eq_self fun scope mem => ?_
    have sameBindings : scope.bindings.map (Binding.recode recoding) = scope.bindings :=
      Table.All.map_eq_self <| (plain.scopes scope mem).imp fun binding isPlain =>
        congrArg (Binding.mk · binding.constant) (isPlain.recode_eq_self recoding)
    exact congrArg (Scope.mk scope.ancestors) sameBindings
  have sameArrays : store.arrays.map (Array.map (Value.recode recoding)) = store.arrays :=
    array_map_eq_self fun items mem => array_map_eq_self fun item itemMem =>
      (plain.arrays items mem item itemMem).recode_eq_self recoding
  have sameObjects : store.objects.map (Table.map (Value.recode recoding)) = store.objects :=
    array_map_eq_self fun properties mem => Table.All.map_eq_self <|
      (plain.objects properties mem).imp fun _ isPlain => isPlain.recode_eq_self recoding
  simp only [recode, sameScopes, sameArrays, sameObjects]

/-! ## What one can see -/

/-- The names of a scope in their order: whether each is a constant, of which type its value is, and
the text of its value. -/
def Store.listing (store : Store) (scope : ScopeRef) :
    List (String × Bool × TypeTag × String) :=
  (store.scope scope).bindings.entries.map fun (name, binding) =>
    (name, binding.constant, binding.value.typeTag, store.display binding.value)

/-- The bindings of a scope are listed alike when code is rewritten. -/
theorem Store.listing_recode
    (store : Store)
    (scope : ScopeRef) :
    (store.recode recoding).listing scope = store.listing scope := by
  simp [listing, Scope.recode, Binding.recode, Function.comp_def]

namespace Session

/-- Two runs look the same that left these stores and came to these results: values are of the same
type and have the same text, and diagnostics are the same. -/
inductive Result.Alike (store other : Store) : Result → Result → Prop
  | value {given same : Value} :
      same.typeTag = given.typeTag →
      other.display same = store.display given →
      Alike store other (.value given) (.value same)
  | refused (diagnostic : Diagnostic) :
      Alike store other (.refused diagnostic) (.refused diagnostic)
  | exited (status : Int) : Alike store other (.exited status) (.exited status)
  | unfinished : Alike store other .unfinished .unfinished

/-- A run and its pruned one have results that are alike. -/
theorem resultOf_alike
    {m pruned : Machine}
    (prunes : m.Prunes pruned) :
    Result.Alike m.store pruned.store (resultOf m) (resultOf pruned) := by
  unfold resultOf
  rw [prunes.outcome?_eq, ← prunes.store]
  cases m.outcome? with
  | none => exact .unfinished
  | some outcome =>
    cases outcome with
    | completed value =>
      exact .value (value.typeTag_recode _) (m.store.display_recode _ value)
    | failed fault =>
      have sameFault : fault.recode .pruning = fault := by simp [Fault.recode]
      simp only [Option.map_some, Outcome.recode, sameFault]
      exact .refused _
    | exited status => exact .exited status

variable {State : Type} (host : Host State)

/-- A program without the statements behind a `return` of their own list does the same in a fresh
session as the program, for as many steps as it is run: it is not over yet either, or comes to a
value of the same type and with the same text, to the same diagnostic or the same status; it writes
the same output, has the same answers of the host, and leaves the same global names, as constants
or not, with values of the same types and with the same texts. -/
theorem runProgram_pruned
    {session : Session}
    (fresh : session.Fresh)
    (program : Program)
    (limit : Nat)
    (state : State) :
    let whole := session.runProgram host limit program session.scope state
    let pruned := session.runProgram host limit program.pruned session.scope state
    Result.Alike whole.2.1.store pruned.2.1.store whole.1 pruned.1 ∧
      pruned.2.1.scope = whole.2.1.scope ∧
      pruned.2.1.store.output = whole.2.1.store.output ∧
      pruned.2.1.store.listing pruned.2.1.scope = whole.2.1.store.listing whole.2.1.scope ∧
      pruned.2.2 = whole.2.2 := by
  have installed : session.store.Installed :=
    fresh.plain.imp fun _ plain => plain.of_lasting Value.lasting_installed fun _ => id
  have begins :
      (Machine.ofProgram program session.scope session.store).Prunes
        (Machine.ofProgram program.pruned session.scope session.store) :=
    ⟨rfl, rfl, .nil, Store.recode_eq_self _ fresh.plain⟩
  obtain ⟨prunes, sameState⟩ :=
    begins.run host (Machine.installed_ofProgram installed program session.scope) limit state
  simp only [runProgram, runMachine]
  refine ⟨resultOf_alike prunes, True.intro, ?_, ?_, sameState⟩
  · rw [← prunes.store]
    rfl
  · rw [← prunes.store, Store.listing_recode]

/-- Statements are left out behind a `return` of the program, of a branch, of a loop, and of a
function in a default. -/
theorem runProgram_pruned_of_nested :
    let source :=
      "f = fn(a, b = fn() \x7b return a\ndebug a \x7d) \x7b\n" ++
        "if a \x7b return b\nf = null \x7d\n" ++
        "while true \x7b return [a]\nio = null \x7d \x7d\n" ++
        "debug f(false)\nreturn f(true)\nf = null"
    ∃ program, Program.ofSource source = .ok program ∧
      program.pruned.length < program.length ∧
      standard.Fresh ∧
      let whole := standard.runProgram still 100 program standard.scope ()
      let pruned := standard.runProgram still 100 program.pruned standard.scope ()
      (∃ value, whole.1 = .value value ∧ value.typeTag = .function) ∧
        Result.Alike whole.2.1.store pruned.2.1.store whole.1 pruned.1 ∧
        pruned.2.1.store.output = whole.2.1.store.output ∧
        pruned.2.1.store.listing pruned.2.1.scope = whole.2.1.store.listing whole.2.1.scope := by
  intro source
  obtain ⟨program, parses, known⟩ :
      ∃ program, Program.ofSource source = .ok program ∧
        (decide (program.pruned.length < program.length) &&
          (match (standard.runProgram still 100 program standard.scope ()).1 with
            | .value value => value.typeTag == .function
            | _ => false)) = true :=
    exists_ok_of_any (by decide +kernel)
  rw [Bool.and_eq_true, decide_eq_true_eq] at known
  obtain ⟨shorter, succeeds⟩ := known
  have completes :
      ∃ value, (standard.runProgram still 100 program standard.scope ()).1 = .value value ∧
        value.typeTag = .function := by
    revert succeeds
    cases (standard.runProgram still 100 program standard.scope ()).1 with
    | value value => exact fun isFunction => ⟨value, rfl, eq_of_beq isFunction⟩
    | _ => exact nofun
  obtain ⟨alike, _, output, names, _⟩ := runProgram_pruned still fresh_standard program 100 ()
  exact ⟨program, parses, shorter, fresh_standard, completes, alike, output, names⟩

end Session
end TinyScript
