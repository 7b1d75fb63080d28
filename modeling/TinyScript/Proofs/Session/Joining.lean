import TinyScript.Proofs.Grammar.Joining
import TinyScript.Proofs.Machine.Sequence
import TinyScript.Proofs.Session.Library
import TinyScript.Proofs.Session.Provenance

/-!
# Sources one after the other

Running two pieces of source one after the other is running the second one behind
the first one as a single piece, up to the positions of the second one
(`runSource_append_lineFeed`).
-/

namespace TinyScript

/-- A value without its positions. -/
def Value.erase : Value → Value :=
  Value.relabel fun _ => .start

/-- A store without its positions. -/
def Store.erase : Store → Store :=
  Store.relabel fun _ => .start

namespace Session

/-- A result and the same one from code of which some has been moved.  A fault names the place
where the code that it arose in is. -/
inductive Result.Moved (change : Position → Position) : Result → Result → Prop
  | value {given moved : Value} :
      moved.erase = given.erase → Moved change (.value given) (.value moved)
  | refused {diagnostic moved : Diagnostic} :
      moved.stage = diagnostic.stage →
      moved.message = diagnostic.message →
      moved.position = diagnostic.position ∨
        moved.position = diagnostic.position.map change →
      Moved change (.refused diagnostic) (.refused moved)
  | exited (status : Int) : Moved change (.exited status) (.exited status)
  | unfinished : Moved change .unfinished .unfinished

/-- Results of marked programs are moved when the marks of the second one are. -/
theorem Result.moved_relabel
    (change : Position → Position)
    (result : Result) :
    Result.Moved change (result.relabel (Position.unmark id id))
      (result.relabel (Position.unmark id change)) := by
  cases result with
  | value given => exact .value (by simp [Value.erase, Function.comp_def])
  | refused diagnostic =>
    refine .refused rfl rfl ?_
    cases diagnostic.position with
    | none => exact .inl rfl
    | some position =>
      obtain ⟨origin, earlier | later⟩ := position.exists_unmark
      · exact .inl (by simp [earlier])
      · exact .inr (by simp [later])
  | exited status => exact .exited status
  | unfinished => exact .unfinished

/-- A moved result stays so beside the line that it is shown with. -/
theorem Result.Moved.illustrate
    {change : Position → Position}
    {result moved : Result}
    (isMoved : Result.Moved change result moved)
    (source joined : String) :
    Result.Moved change (result.illustrate source) (moved.illustrate joined) := by
  have stage : ∀ (diagnostic : Diagnostic) (source : String),
      (diagnostic.illustrate source).stage = diagnostic.stage ∧
        (diagnostic.illustrate source).message = diagnostic.message ∧
          (diagnostic.illustrate source).position = diagnostic.position := by
    intro diagnostic source
    unfold Diagnostic.illustrate Diagnostic.withSource
    split
    · split
      · exact ⟨rfl, rfl, rfl⟩
      · split <;> exact ⟨rfl, rfl, rfl⟩
    · exact ⟨rfl, rfl, rfl⟩
  cases isMoved with
  | value same => exact .value same
  | @refused diagnostic moved sameStage sameMessage place =>
    obtain ⟨stage₁, message₁, position₁⟩ := stage diagnostic source
    obtain ⟨stage₂, message₂, position₂⟩ := stage moved joined
    refine .refused ?_ ?_ ?_
    · rw [stage₁, stage₂, sameStage]
    · rw [message₁, message₂, sameMessage]
    · rw [position₁, position₂]
      exact place
  | exited status => exact .exited status
  | unfinished => exact .unfinished

variable {State : Type} (host : Host State)

/-- A source that is parsed to a program runs it. -/
theorem runSource_of_ofSource
    {source : String}
    {program : Program}
    (parses : Program.ofSource source = .ok program)
    (session : Session)
    (limit : Nat)
    (state : State) :
    session.runSource host limit source state =
      ((session.runProgram host limit program session.scope state).1.illustrate source,
        (session.runProgram host limit program session.scope state).2) := by
  simp only [runSource, parses]

/-- A program that comes to a value has been run to its end. -/
theorem completes_of_runProgram
    {session next : Session}
    {limit : Nat}
    {program : Program}
    {scope : ScopeRef}
    {state between : State}
    {value : Value}
    {source : String}
    (succeeds :
      ((session.runProgram host limit program scope state).1.illustrate source,
        (session.runProgram host limit program scope state).2) = (.value value, next, between)) :
    ((Machine.ofProgram program scope session.store).run host limit state).1.outcome? =
        some (.completed value) ∧
      next = { session with
        store := ((Machine.ofProgram program scope session.store).run host limit state).1.store } ∧
        between = ((Machine.ofProgram program scope session.store).run host limit state).2 := by
  simp only [runProgram, runMachine, Prod.mk.injEq] at succeeds
  obtain ⟨gives, rfl, rfl⟩ := succeeds
  refine ⟨?_, rfl, rfl⟩
  unfold resultOf at gives
  cases ends : ((Machine.ofProgram program scope session.store).run host limit state).1.outcome?
    with
  | none =>
    rw [ends] at gives
    cases gives
  | some outcome =>
    rw [ends] at gives
    cases outcome <;> cases gives
    rfl

/-- Of a program in which some code has been moved, the whole run is the same. -/
theorem runProgram_moved
    {session : Session}
    (installed : session.store.Installed)
    (change : Position → Position)
    (limit : Nat)
    (program : Program)
    (scope : ScopeRef)
    (state : State) :
    let apart := session.runProgram host limit program scope state
    let moved := session.runProgram host limit (program.map (Stmt.relabel change)) scope state
    Result.Moved change apart.1 moved.1 ∧
      moved.2.1.scope = apart.2.1.scope ∧
        moved.2.1.store.erase = apart.2.1.store.erase ∧
          moved.2.2 = apart.2.2 := by
  obtain ⟨result, store, next, runs⟩ :=
    exists_runProgram_relabel host installed limit program scope state
  have sameCode : program.map (Stmt.relabel id) = program :=
    map_eq_self fun statement _ => statement.relabel_id
  have apart := runs id id
  have moved := runs id change
  rw [Store.relabel_id, sameCode] at apart
  rw [Store.relabel_id] at moved
  have sameStore : ∀ marks : Position → Position,
      (store.relabel marks).erase = store.relabel fun _ => .start :=
    fun marks => store.relabel_relabel marks _
  refine ⟨?_, ?_, ?_, ?_⟩
  · simp only [apart, moved, result.moved_relabel change]
  · simp only [apart, moved]
  · simp only [apart, moved, sameStore]
  · simp only [apart, moved]

/-- Running a piece of source, and then another one, has the same effect as running both as one
piece with a line feed between them: the same output, bindings, arrays and objects, up to the
positions in functions, with the same answers of the host.  What the second piece comes to is what
its statements come to at the places that they have behind the first one. -/
theorem runSource_append_lineFeed
    {session next : Session}
    {state between : State}
    {limit : Nat}
    {source more : String}
    {program others : Program}
    {value : Value}
    (installed : session.store.Installed)
    (parses : Program.ofSource source = .ok program)
    (parsesMore : Program.ofSource more = .ok others)
    (returnless : Stmt.areReturnless program = true)
    (succeeds : session.runSource host limit source state = (.value value, next, between)) :
    ∃ count, ∀ rest,
      let apart := next.runSource host rest more between
      let joined := session.runSource host (count + rest) (source ++ "\n" ++ more) state
      let shift := (Position.below source).behind
      joined.2.1.scope = apart.2.1.scope ∧
        joined.2.1.store.erase = apart.2.1.store.erase ∧
        joined.2.2 = apart.2.2 ∧
        (others ≠ [] →
          Result.Moved shift apart.1 joined.1 ∧
            let moved :=
              next.runProgram host rest (others.map (Stmt.relabel shift)) next.scope between
            joined = (moved.1.illustrate (source ++ "\n" ++ more), moved.2)) := by
  rw [runSource_of_ofSource host parses] at succeeds
  obtain ⟨completes, reached, answered⟩ := completes_of_runProgram host succeeds
  have parsesBoth := Grammar.ofSource_append_lineFeed parses parsesMore
  have joins := runSource_of_ofSource host parsesBoth session
  by_cases empty : others = []
  · subst empty
    -- The first piece is over, and nothing is left to run.
    refine ⟨limit, fun rest => ?_⟩
    have joinedRun :
        (Machine.ofProgram program session.scope session.store).run host (limit + rest) state =
          (Machine.ofProgram program session.scope session.store).run host limit state :=
      Machine.run_of_le host (by rw [completes]; rfl) (Nat.le_add_right limit rest)
    obtain ⟨control, apartRun⟩ :=
      Machine.exists_run_ofProgram_nil host next.scope next.store rest between
    simp only [joins, runSource_of_ofSource host parsesMore, List.map_nil, List.append_nil,
      runProgram, runMachine, joinedRun, apartRun]
    simp only [reached, answered]
    exact ⟨True.intro, True.intro, True.intro, fun nonempty => absurd rfl nonempty⟩
  · obtain ⟨count, goesOn⟩ := Machine.exists_run_ofProgram_append host returnless completes
    refine ⟨count, fun rest => ?_⟩
    have installedNext : next.store.Installed := by
      rw [reached]
      exact ((Machine.installed_ofProgram installed program session.scope).run host limit
        state).store
    have nonempty : others.map (Stmt.relabel (Position.below source).behind) ≠ [] := by
      simpa using empty
    have joinedRun :
        session.runProgram host (count + rest)
            (program ++ others.map (Stmt.relabel (Position.below source).behind)) session.scope
            state =
          next.runProgram host rest (others.map (Stmt.relabel (Position.below source).behind))
            next.scope between := by
      simp only [runProgram, runMachine, Machine.run_add, goesOn _ nonempty, reached, answered]
    obtain ⟨isMoved, sameScope, sameStore, sameState⟩ :=
      runProgram_moved host installedNext (Position.below source).behind rest others next.scope
        between
    simp only [joins, runSource_of_ofSource host parsesMore, joinedRun]
    exact ⟨sameScope, sameStore, sameState, fun _ => ⟨isMoved.illustrate _ _, True.intro⟩⟩

/-- The second piece calls a function of the first one, writes what comes of it, and then fails,
in the joined source two lines further down. -/
theorem runSource_append_lineFeed_of_failure :
    let source := "f = fn(s) \x7b\nreturn s \x7d"
    let more := "io.print(f('é'), f)\nf.y()"
    let host : Host Unit :=
      { readLine := fun _ => ([], ()), clock := fun _ => (0, ()), random := fun _ => (0, ())
        call := fun _ _ _ store _ => (.ok .null, store, ()) }
    ∃ limit program others value next between,
      standard.store.Installed ∧
        Program.ofSource source = .ok program ∧
        Program.ofSource more = .ok others ∧
        Stmt.areReturnless program = true ∧
        standard.runSource host limit source () = (.value value, next, between) ∧
        ∃ count, ∀ rest,
          let apart := next.runSource host rest more between
          let joined := standard.runSource host (count + rest) (source ++ "\n" ++ more) ()
          joined.2.1.store.erase = apart.2.1.store.erase ∧
            Result.Moved (Position.below source).behind apart.1 joined.1 := by
  intro source more host
  obtain ⟨program, parses, returnless⟩ :
      ∃ program, Program.ofSource source = .ok program ∧ Stmt.areReturnless program = true :=
    exists_ok_of_any (by decide +kernel)
  obtain ⟨others, parsesMore, nonempty⟩ :
      ∃ others, Program.ofSource more = .ok others ∧ (!others.isEmpty) = true :=
    exists_ok_of_any (by decide +kernel)
  have nonempty : others ≠ [] := by
    rintro rfl
    cases nonempty
  obtain ⟨value, next, between, succeeds⟩ :
      ∃ value next between,
        standard.runSource host 20 source () = (.value value, next, between) := by
    have known : (match (standard.runSource host 20 source ()).1 with
        | .value _ => true
        | _ => false) = true := by
      decide +kernel
    cases ran : standard.runSource host 20 source () with
    | mk result left =>
      cases result with
      | value value => exact ⟨value, left.1, left.2, rfl⟩
      | _ => simp [ran] at known
  obtain ⟨count, joins⟩ :=
    runSource_append_lineFeed host installed_standard parses parsesMore returnless succeeds
  exact ⟨20, program, others, value, next, between, installed_standard, parses, parsesMore,
    returnless, succeeds, count, fun rest =>
      ⟨(joins rest).2.1, ((joins rest).2.2.2 nonempty).1⟩⟩

end Session
end TinyScript
