import TinyScript.Proofs.Grammar.Completeness
import TinyScript.Proofs.Grammar.Locality
import TinyScript.Proofs.Grammar.Positions
import TinyScript.Proofs.Token.Joining

/-!
# Programs one behind the other

Nothing that a program ends in goes on over a line end, as long as no `else` comes
behind it.  The tokens of two programs with a line end between them are therefore
the program that has the statements of both.
-/

namespace TinyScript
namespace Grammar

/-- A statement stays the same statement when a line end comes behind what follows it, and no `else`
comes behind that. -/
theorem Derives.append_of_lineEnds
    {tail : List Token}
    (lineEnds : kindAhead tail = .newline)
    (noElse : kindAhead (tail.dropWhile (·.kind == .newline)) ≠ .keyword .elseWord)
    {used next : List Token}
    {statement : Stmt}
    (derives : Derives .statement used statement next) :
    Derives .statement used statement (next ++ tail) := by
  have stopped : stops (kindAhead tail) = true := by
    rw [lineEnds]
    rfl
  have undeclared : declared? tail = none := by
    cases tail with
    | nil => rfl
    | cons line tail =>
      rw [kindAhead_cons] at lineEnds
      exact declared?_of_kind (by simp [lineEnds]) tail
  have replaces := (replaces_nil stopped undeclared noElse).prepend next
  rw [List.append_nil] at replaces
  refine derives.keep ⟨replaces, ?_⟩
  cases next with
  | nil =>
    right
    rw [List.nil_append, lineEnds]
    rfl
  | cons token next => exact .inl (List.cons_ne_nil token next)

/-! ## Programs -/

/-- No program begins with `else`, whatever separators stand before its first statement. -/
theorem Derives.noElse_ahead
    {separators used : List Token}
    {statements : List Stmt}
    (separated : Separators separators)
    (derives : Derives .statements used statements []) :
    kindAhead ((separators ++ used).dropWhile (·.kind == .newline)) ≠ .keyword .elseWord := by
  induction separators with
  | nil =>
      rw [List.nil_append]
      cases derives with
      | noStatements => simp
      | @moreStatements used₁ _ _ _ _ _ firstDerives _ _ =>
          have begins := firstDerives.begins
          obtain ⟨token, rest, rfl⟩ :=
            List.exists_cons_of_ne_nil (firstDerives.spelled rfl)
          rw [kindAhead_cons] at begins
          have notNewline : (token.kind == Token.Kind.newline) = false := by
            rw [beq_eq_false_iff_ne]
            intro same
            rw [same] at begins
            exact absurd begins (by decide)
          rw [List.append_assoc, List.cons_append, List.dropWhile_cons, notNewline,
            if_neg Bool.false_ne_true, kindAhead_cons]
          intro same
          rw [same] at begins
          exact absurd begins (by decide)
  | cons separator separators ih =>
      rw [Separators, List.forall_mem_cons] at separated
      rw [List.cons_append, List.dropWhile_cons]
      split
      · exact ih separated.2
      · rename_i notNewline
        rcases separated.1 with newline | semicolon
        · simp [newline] at notNewline
        · simp [semicolon]

/-- Statements with separators and further statements behind them.  Without statements of their
own, only the separators stand in front of the others. -/
theorem Derives.statements_append
    {used : List Token}
    {statements : List Stmt}
    (derives : Derives .statements used statements [])
    {separators used' : List Token}
    {others : List Stmt}
    (separated : Separators separators)
    (lineEnds : kindAhead (separators ++ used') = .newline)
    (othersDerive : Derives .statements used' others []) :
    used = [] ∧ statements = [] ∨
      Derives .statements (used ++ separators ++ used') (statements ++ others) [] := by
  induction statements generalizing used with
  | nil =>
      cases derives with
      | noStatements => exact .inl ⟨rfl, rfl⟩
  | cons first rest ih =>
      cases derives with
      | @moreStatements used₁ between used₂ _ _ _ firstDerives betweenSeparated restDerives =>
        refine .inr ?_
        have noElse := othersDerive.noElse_ahead separated
        have firstExtended := firstDerives.append_of_lineEnds lineEnds noElse
        rcases ih restDerives with ⟨rfl, rfl⟩ | restJoined
        · have all : Separators (between ++ separators) := by
            intro token mem
            rcases List.mem_append.1 mem with mem | mem
            · exact betweenSeparated token mem
            · exact separated token mem
          have joined :
              Derives .statements (used₁ ++ (between ++ separators) ++ used')
                (first :: others) [] := by
            refine .moreStatements ?_ all othersDerive
            simpa using firstExtended
          simpa using joined
        · have joined :
              Derives .statements (used₁ ++ between ++ (used₂ ++ separators ++ used'))
                (first :: (rest ++ others)) [] := by
            refine .moreStatements ?_ betweenSeparated restJoined
            simpa using firstExtended
          simpa using joined

/-- Two programs with a line end between them are the program of the statements of both. -/
theorem Derives.program_append
    {used used' : List Token}
    {program program' : Program}
    (derives : Derives .program used program [])
    (derives' : Derives .program used' program' [])
    {line : Token}
    (lineKind : line.kind = .newline) :
    Derives .program (used ++ line :: used') (program ++ program') [] := by
  cases derives with
  | @program before used statements separatedBefore statementsDerive =>
  cases derives' with
  | @program between used' others separatedBetween othersDerive =>
    have separated : Separators (line :: between) := by
      rw [Separators, List.forall_mem_cons]
      exact ⟨.inl lineKind, separatedBetween⟩
    rcases statementsDerive.statements_append separated lineKind othersDerive with
      ⟨rfl, rfl⟩ | joined
    · have all : Separators (before ++ line :: between) := by
        intro token mem
        rcases List.mem_append.1 mem with mem | mem
        · exact separatedBefore token mem
        · exact separated token mem
      simpa using Derives.program all othersDerive
    · simpa using Derives.program separatedBefore joined

/-! ## Sources -/

/-- The tokens before the end that a source has at its end. -/
theorem tokensAhead_append_eof
    {tokens : List Token}
    (others : ∀ token ∈ tokens, token.kind ≠ .eof)
    {eof : Token}
    (eofKind : eof.kind = .eof) :
    Program.tokensAhead (tokens ++ [eof]) = tokens :=
  tokensAhead_append others eofKind []

/-- A program and another one on the lines behind it are read as the statements of both, those of
the other one at the places that they have there. -/
theorem ofSource_append_lineFeed
    {source more : String}
    {program others : Program}
    (parses : Program.ofSource source = .ok program)
    (parsesMore : Program.ofSource more = .ok others) :
    Program.ofSource (source ++ "\n" ++ more) =
      .ok (program ++ others.map (Stmt.relabel (Position.below source).behind)) := by
  obtain ⟨tokens, scanned, read⟩ := exists_tokens_of_ofSource parses
  obtain ⟨tokensMore, scannedMore, readMore⟩ := exists_tokens_of_ofSource parsesMore
  obtain ⟨done, rfl, noEof, scannedBoth⟩ := Token.scan_append_lineFeed scanned more
  obtain ⟨doneMore, rfl, noEofMore⟩ :=
    ((Token.scan_eq_ok_iff_tiling more tokensMore).1 scannedMore).exists_eof
  rw [scannedMore] at scannedBoth
  refine ofSource_of_derives scannedBoth ?_
  have derives := ofTokens_sound read
  have derivesMore := ofTokens_sound readMore
  rw [tokensAhead_append_eof noEof rfl] at derives
  rw [tokensAhead_append_eof noEofMore rfl] at derivesMore
  let line := Token.lineEnd (Position.start.afterAll source.toList)
  have lineKind : line.kind = .newline := rfl
  have moved :
      Derives .program (doneMore.map (Token.relabel (Position.below source).behind))
        (others.map (Stmt.relabel (Position.below source).behind)) [] :=
    derivesMore.relabel
  have joined := derives.program_append moved lineKind
  simp only [List.map_append, List.map_cons, List.map_nil]
  rw [← List.cons_append, ← List.append_assoc, tokensAhead_append_eof _ rfl]
  · exact joined
  · intro token mem
    simp only [List.mem_append, List.mem_cons, List.mem_map] at mem
    rcases mem with mem | rfl | ⟨origin, mem, rfl⟩
    · exact noEof token mem
    · simp [Token.lineEnd]
    · exact noEofMore origin mem

end Grammar
end TinyScript
