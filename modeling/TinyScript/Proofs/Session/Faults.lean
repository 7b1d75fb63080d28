import TinyScript.Proofs.Machine.Locations
import TinyScript.Proofs.Session.Nesting

/-!
# Where a fault is shown

A fault of a program names the node whose operation failed, however deep in calls, defaults and
loops that was (`exists_runProgram_refused_iff`).
-/

namespace TinyScript
namespace Session

variable {State : Type} {host : Host State}

/-- A run is refused with a diagnostic just when it met a fault that has this diagnostic. -/
theorem resultOf_eq_refused_iff
    {m : Machine}
    {diagnostic : Diagnostic} :
    resultOf m = .refused diagnostic ↔
      ∃ fault, m.control = .failed fault ∧ fault.diagnostic = diagnostic := by
  obtain ⟨control, scope, stack, store⟩ := m
  cases control <;> cases stack <;> simp [resultOf, Machine.outcome?]

/-- The diagnostic of a result, if there is one. -/
def Result.diagnostic? : Result → Option Diagnostic
  | .refused diagnostic => some diagnostic
  | _ => none

theorem Result.eq_refused_of_diagnostic?
    {result : Result}
    {diagnostic : Diagnostic}
    (isDiagnostic : result.diagnostic? = some diagnostic) :
    result = .refused diagnostic := by
  cases result <;> cases isDiagnostic
  rfl

/-- A program that is refused came to a moment at which the innermost operation at hand fails. -/
theorem exists_moment_of_refused
    {session : Session}
    {program : Program}
    {scope : ScopeRef}
    {state : State}
    {limit : Nat}
    {diagnostic : Diagnostic}
    (refused : (session.runProgram host limit program scope state).1 = .refused diagnostic) :
    ∃ trail m now expr outer cause,
      Machine.Moment host (Machine.ofProgram program scope session.store) state trail m now ∧
        m.Innermost trail expr outer ∧
        m.Breaks host now expr cause ∧
        Pending.Nested program (.of expr :: outer) ∧
        diagnostic =
          { stage := .runtime, message := cause.message, position := some expr.position } := by
  obtain ⟨fault, failed, rfl⟩ := resultOf_eq_refused_iff.1 refused
  obtain ⟨_, stopped⟩ :=
    Machine.exists_moment_run host (Machine.ofProgram program scope session.store) state limit
  obtain ⟨trail, m, now, moment, going, fails⟩ :=
    stopped.exists_advance_eq (by simp [Machine.ofProgram]) failed
  obtain ⟨expr, outer, innermost, breaks, nested, place⟩ := moment.stands.located going fails
  refine ⟨trail, m, now, expr, outer, fault.cause, moment, innermost, breaks, nested, ?_⟩
  simp only [Fault.diagnostic, place]
  rfl

/-- A program's diagnostic has a place, so the nodes around the one that failed, which would place
it as well, leave it as it is. -/
theorem locate_of_refused
    {session : Session}
    {program : Program}
    {scope : ScopeRef}
    {state : State}
    {limit : Nat}
    {diagnostic : Diagnostic}
    (refused : (session.runProgram host limit program scope state).1 = .refused diagnostic)
    (position : Position) :
    diagnostic.locate position = diagnostic := by
  obtain ⟨_, _, _, _, _, _, _, _, _, _, rfl⟩ := exists_moment_of_refused refused
  exact Diagnostic.locate_of_isSome rfl position

/-- A program is refused with a diagnostic exactly if, at a moment of its run, the innermost
operation at hand fails, and the diagnostic says what is wrong with that operation and has the place
of its node.  The operations around it, one in the other up to the program and to the functions that
are called, add nothing to the diagnostic. -/
theorem exists_runProgram_refused_iff
    (host : Host State)
    (session : Session)
    (program : Program)
    (scope : ScopeRef)
    (state : State)
    (diagnostic : Diagnostic) :
    (∃ limit, (session.runProgram host limit program scope state).1 = .refused diagnostic) ↔
      ∃ trail m now expr outer cause,
        Machine.Moment host (Machine.ofProgram program scope session.store) state trail m now ∧
          m.Innermost trail expr outer ∧
          m.Breaks host now expr cause ∧
          Pending.Nested program (.of expr :: outer) ∧
          diagnostic =
            { stage := .runtime
              message := cause.message
              position := some expr.position
              width := 1
              snippet := none
              notes := [] } := by
  constructor
  · rintro ⟨limit, refused⟩
    exact exists_moment_of_refused refused
  · rintro ⟨trail, m, now, expr, outer, cause, moment, -, breaks, -, rfl⟩
    obtain ⟨limit, stops⟩ := moment.exists_run_eq
    have going :
        ((Machine.ofProgram program scope session.store).run host limit state).1.outcome? =
          none := by
      rw [stops]
      exact breaks.outcome?_eq_none
    let fault : Fault := { cause := cause, position := some expr.position }
    have fails :
        ((Machine.ofProgram program scope session.store).run host (limit + 1) state).1.control =
          .failed fault := by
      rw [Machine.run_succ limit going, stops]
      exact breaks.advance
    exact ⟨limit + 1, resultOf_eq_refused_iff.2 ⟨fault, fails, rfl⟩⟩

end Session

/-! ## The source of a node -/

section Sources

variable {programs : List Program}

/-- Whatever is covered by code of a program occurs in the program. -/
theorem Program.OccursIn.covers
    {depth : Nat}
    {code node : Node}
    (occurs : Program.OccursIn programs depth code)
    (covers : code.Covers node) :
    ∃ depth, Program.OccursIn programs depth node := by
  induction covers with
  | self => exact ⟨depth, occurs⟩
  | part _ isPart _ ih =>
    obtain ⟨depth, program, mem, occurs⟩ := ih
    exact ⟨depth, program, mem, occurs.part isPart⟩
  | inside _ isInside ih =>
    obtain ⟨depth, program, mem, occurs⟩ := ih
    exact ⟨depth + 1, program, mem, occurs.inside isInside⟩

/-- Whatever the body of a program covers is this body or occurs in the program. -/
theorem Program.occursIn_of_covers
    {program : Program}
    (mem : program ∈ programs)
    {node : Node}
    (covers : (Node.body program).Covers node) :
    node = .body program ∨ ∃ depth, Program.OccursIn programs depth node := by
  induction covers with
  | self => exact .inl rfl
  | part _ isPart _ ih =>
    rcases ih with rfl | ⟨depth, other, isOther, occurs⟩
    · cases isPart with
      | statement isStatement => exact .inr ⟨0, program, mem, .statement isStatement⟩
    · exact .inr ⟨depth, other, isOther, occurs.part isPart⟩
  | inside _ isInside ih =>
    rcases ih with rfl | ⟨depth, other, isOther, occurs⟩
    · cases isInside
    · exact .inr ⟨depth + 1, other, isOther, occurs.inside isInside⟩

/-- Operations in progress stand in some programs if the functions that run for them do. -/
theorem Pending.Nested.occursIn
    {program : Program}
    (mem : program ∈ programs)
    {trail : List Pending}
    (nested : Pending.Nested program trail)
    (functions : ∀ pending ∈ trail, ∀ function, pending.function = some function →
      ∃ depth, Program.OccursIn programs depth (.function function)) :
    ∀ pending ∈ trail, ∃ depth, Program.OccursIn programs depth (.expr pending.expr) := by
  induction trail with
  | nil => simp
  | cons pending outer ih =>
    obtain ⟨covers, around⟩ := nested
    have ofOuter := ih around fun other isOther =>
      functions other (List.mem_cons_of_mem pending isOther)
    refine List.forall_mem_cons.2 ⟨?_, ofOuter⟩
    cases outer with
    | nil => exact (Program.occursIn_of_covers mem covers).resolve_left (by simp)
    | cons next outer =>
      have isNext : next ∈ pending :: next :: outer := by simp
      cases runs : next.function with
      | none =>
        obtain ⟨depth, occurs⟩ := ofOuter next List.mem_cons_self
        rw [Pending.codeOf, Pending.code, runs] at covers
        exact occurs.covers covers
      | some function =>
        obtain ⟨depth, occurs⟩ := functions next isNext function runs
        rw [Pending.codeOf, Pending.code, runs] at covers
        exact occurs.covers covers

end Sources

variable {State : Type} {host : Host State}

/-- The functions that run for operations in progress keep to every layout that the run keeps to. -/
theorem Layout.Follows.exists_runs_of_pending
    {layout : Layout}
    {origin : ScopeRef}
    {start m : Machine}
    (follows : layout.Follows origin start)
    {begin now : State}
    {trail : List Pending}
    (moment : Machine.Moment host start begin trail m now) :
    ∀ pending ∈ trail, ∀ function, pending.function = some function →
      ∃ store scope, layout.Runs store scope (.function function) := by
  induction moment with
  | start => simp
  | @next trail m now moment going ih =>
    intro pending mem function runs
    rcases Machine.function_of_mem_trailAfter mem runs with before | ⟨captured, _, _, applies⟩
    · exact ih pending before function runs
    · obtain ⟨limit, stops⟩ := moment.exists_run_eq
      have ofControl := (follows.run host limit begin).holds.values.control
      rw [stops, applies] at ofControl
      exact ⟨_, captured, ofControl.1⟩

namespace Session

/-- The sessions that sources lead to which are run one after the other, each for some number of
steps. -/
inductive Evaluated (host : Host State) : List String → Session → Prop
  | fresh {session} : session.Fresh → Evaluated host [] session
  | source {sources session} (source : String) (limit : Nat) (state : State) :
      Evaluated host sources session →
      Evaluated host (sources ++ [source]) (session.runSource host limit source state).2.1

/-- The programs that some sources are; a source that is none is left out. -/
def programsOf (sources : List String) : List Program :=
  sources.filterMap fun source => (Program.ofSource source).toOption

/-- The programs of some sources are those that the sources are parsed to. -/
theorem mem_programsOf
    {sources : List String}
    {program : Program} :
    program ∈ programsOf sources ↔
      ∃ source ∈ sources, Program.ofSource source = .ok program := by
  have isProgram : ∀ source, (Program.ofSource source).toOption = some program ↔
      Program.ofSource source = .ok program := by
    intro source
    cases Program.ofSource source <;> simp [Except.toOption]
  simp [programsOf, isProgram]

/-- A session in which sources were evaluated is one that their programs lead to. -/
theorem Evaluated.reached
    {sources : List String}
    {session : Session}
    (evaluated : Evaluated host sources session) :
    Reached host (programsOf sources) session := by
  induction evaluated with
  | fresh fresh => exact .fresh fresh
  | @source sources session source limit state _ ih =>
    cases parses : Program.ofSource source with
    | error diagnostic =>
      simpa [programsOf, runSource, parses, Except.toOption] using ih
    | ok program =>
      have next := ih.run program limit state
      simpa [programsOf, runSource, parses, Except.toOption] using next

/-- A run of sources, one after the other, that ends with a fault of the last one shows a line of
that one: the line that has the number which the failing operation has in the source it was written
in.  Where that is an earlier source, the code of a function of which runs, the line is another one
than the one in which the operation was written. -/
theorem exists_written_of_refused
    {sources : List String}
    {session : Session}
    (evaluated : Evaluated host sources session)
    {source : String}
    {program : Program}
    (parses : Program.ofSource source = .ok program)
    {limit : Nat}
    {state : State}
    {diagnostic : Diagnostic}
    (refused : (session.runSource host limit source state).1 = .refused diagnostic) :
    ∃ written ∈ sources ++ [source], ∃ code depth expr trail m now outer cause,
      Program.ofSource written = .ok code ∧
        code.Occurs depth (.expr expr) ∧
        Machine.Moment host (Machine.ofProgram program session.scope session.store) state trail m
          now ∧
        m.Innermost trail expr outer ∧
        m.Breaks host now expr cause ∧
        diagnostic.message = cause.message ∧
        diagnostic.position = some expr.position ∧
        diagnostic.snippet =
          (Text.lines source.toList)[expr.position.line]?.map fun line =>
            Diagnostic.pointer line expr.position.column 1 := by
  obtain ⟨plain, ofProgram, rfl⟩ :
      ∃ plain, (session.runProgram host limit program session.scope state).1 = .refused plain ∧
        plain.illustrate source = diagnostic := by
    simp only [runSource, parses] at refused
    cases result : (session.runProgram host limit program session.scope state).1 with
    | refused plain =>
      rw [result] at refused
      exact ⟨plain, rfl, Result.refused.inj refused⟩
    | _ =>
      rw [result] at refused
      cases refused
  obtain ⟨trail, m, now, expr, outer, cause, moment, innermost, breaks, nested, rfl⟩ :=
    exists_moment_of_refused ofProgram
  have isLast : program ∈ programsOf (sources ++ [source]) :=
    mem_programsOf.2 ⟨source, by simp, parses⟩
  have mirrors : session.Mirrors (programsOf (sources ++ [source])) :=
    evaluated.reached.mirrors fun other isOther => by
      simp only [programsOf, List.filterMap_append, List.mem_append]
      exact .inl isOther
  have runs := (mirrors.follows isLast).exists_runs_of_pending moment
  have functions : ∀ pending ∈ outer, ∀ function, pending.function = some function →
      ∃ depth,
        Program.OccursIn (programsOf (sources ++ [source])) depth (.function function) := by
    intro pending mem function calls
    obtain ⟨_, _, _, occurs⟩ := runs pending (innermost.mem_trail mem) function calls
    exact ⟨_, occurs⟩
  obtain ⟨depth, code, isCode, occurs⟩ :=
    nested.occursIn isLast (List.forall_mem_cons.2 ⟨by simp, functions⟩) _ List.mem_cons_self
  obtain ⟨written, isSource, isWritten⟩ := mem_programsOf.1 isCode
  refine ⟨written, isSource, code, depth, expr, trail, m, now, outer, cause, isWritten, occurs,
    moment, innermost, breaks, ?_⟩
  simp only [Diagnostic.illustrate, Diagnostic.withSource]
  cases (Text.lines source.toList)[expr.position.line]? <;> exact ⟨rfl, rfl, rfl⟩

theorem exists_written_of_refused_of_earlier :
    let written := "f = fn(x) \x7b return x - true \x7d"
    let source := "f('a')"
    let defined := (standard.runSource still 60 written ()).2.1
    let diagnostic : Diagnostic :=
      { stage := .runtime
        message := "unsupported binary operation: string - boolean"
        position := some { line := 0, column := 19, offset := 19 }
        snippet := some (Diagnostic.pointer source.toList 19 1) }
    Evaluated still [written] defined ∧
      (∃ program, Program.ofSource source = .ok program) ∧
      (defined.runSource still 60 source ()).1 = .refused diagnostic ∧
      ∃ other ∈ [written, source], ∃ code depth expr,
        Program.ofSource other = .ok code ∧
          code.Occurs depth (.expr expr) ∧
          diagnostic.position = some expr.position := by
  intro written source defined diagnostic
  have refused : (defined.runSource still 60 source ()).1 = .refused diagnostic :=
    Result.eq_refused_of_diagnostic? (by decide +kernel)
  obtain ⟨program, parses, -⟩ :
      ∃ program, Program.ofSource source = .ok program ∧ (!program.isEmpty) = true :=
    exists_ok_of_any (by decide +kernel)
  clear_value source
  clear_value written
  have evaluated : Evaluated still [written] defined :=
    .source written 60 () (.fresh fresh_standard)
  obtain ⟨other, isSource, code, depth, expr, -, -, -, -, -, isWritten, occurs, -, -, -, -, place,
    -⟩ := exists_written_of_refused evaluated parses refused
  exact ⟨evaluated, ⟨program, parses⟩, refused, other, isSource, code, depth, expr, isWritten,
    occurs, place⟩

/-- An operation fails that was written in an earlier source, which alone has an expression at that
place.  The snippet shows another line than the one in which it was written. -/
theorem snippet_ne_line_of_earlier :
    let written := "f = fn(x) \x7b return x - true \x7d"
    let source := "f('a')"
    let defined := (standard.runSource still 60 written ()).2.1
    let position : Position := { line := 0, column := 19, offset := 19 }
    let elsewhere (expr : Expr) : Bool := expr.position ≠ position
    (Program.ofSource written).toOption.any (fun code => !Stmt.allEverywhere elsewhere code) ∧
      (Program.ofSource source).toOption.any (Stmt.allEverywhere elsewhere) ∧
      ∃ diagnostic line,
        (defined.runSource still 60 source ()).1 = .refused diagnostic ∧
          diagnostic.position = some position ∧
          (Text.lines written.toList)[position.line]? = some line ∧
          diagnostic.snippet = some (Diagnostic.pointer source.toList position.column 1) ∧
          diagnostic.snippet ≠ some (Diagnostic.pointer line position.column 1) := by
  intro written source defined position elsewhere
  let diagnostic : Diagnostic :=
    { stage := .runtime
      message := "unsupported binary operation: string - boolean"
      position := some position
      snippet := some (Diagnostic.pointer source.toList position.column 1) }
  refine ⟨by decide +kernel, by decide +kernel, diagnostic, written.toList, ?_, rfl, ?_, rfl, ?_⟩
  · exact Result.eq_refused_of_diagnostic? (by decide +kernel)
  · decide +kernel
  · decide +kernel

end Session
end TinyScript
