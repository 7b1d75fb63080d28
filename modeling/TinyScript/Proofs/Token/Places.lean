import TinyScript.Proofs.Text.Lines
import TinyScript.Proofs.Token.Faults

/-!
# Places and carets

The place of a token and the place of a lexical fault are told by the text before
them alone.  A token other than a string and a line feed stands on one line, in
front of the line's ending, so carets that are drawn below the line from the
token's column on stand below its lexeme (`Token.scan_points_at_tokens`).
-/

namespace TinyScript

/-- A position that tells the place behind a text: its bytes, its line feeds, and the characters
behind the last of these. -/
structure Position.IsBehind (position : Position) (before : List Char) : Prop where
  offset : position.offset = (String.ofList before).utf8ByteSize
  line : position.line = before.count '\n'
  column :
    ∃ above current,
      before = above ++ current ∧ (above = [] ∨ above.getLast? = some '\n') ∧
      '\n' ∉ current ∧ position.column = current.length

/-- The scanner's count of lines, columns and bytes agrees with the text. -/
theorem Position.isBehind_afterAll
    (before : List Char) :
    (Position.start.afterAll before).IsBehind before := by
  obtain ⟨above, split, begins⟩ := Text.exists_append_lastLine before
  refine ⟨?_, ?_, above, Text.lastLine before, split, begins, Text.not_mem_lastLine before,
    column_afterAll before⟩
  · rw [offset_afterAll]
    exact Nat.zero_add _
  · rw [line_afterAll]
    exact Nat.zero_add _

/-- A diagnostic at a place in front of some text shows the line around that place, whatever it
showed before. -/
theorem Diagnostic.snippet_withSource_of_ne_nil
    {diagnostic : Diagnostic}
    {source : String}
    {before rest : List Char}
    (more : rest ≠ [])
    (split : source.toList = before ++ rest)
    (place : diagnostic.position = some (Position.start.afterAll before)) :
    (diagnostic.withSource source).snippet =
      some (pointer (Text.lineAround before rest) (Text.lastLine before).length
        diagnostic.width) := by
  have number : (Position.start.afterAll before).line = before.count '\n' :=
    (Position.isBehind_afterAll before).line
  have around := Text.getElem?_lines_append before rest
  rw [if_neg (fun nothing => more nothing.2), ← split] at around
  simp only [withSource, place, number, around, Position.column_afterAll]

namespace Token

open Scanner

/-- A character of a word, a number or an operator ends no line. -/
theorem ne_break_of_class
    {c : Char}
    (inToken :
      Text.continuesWord c = true ∨ c.isDigit = true ∨ c = '.' ∨ isOperatorChar c = true) :
    c ≠ '\n' ∧ c ≠ '\r' := by
  constructor
  all_goals
    rintro rfl
    revert inToken
    decide +kernel

/-- No line ends in the slice of a token other than a string and a line feed. -/
theorem Spelled.ne_break
    {kind : Kind}
    {lexeme : String}
    {slice beyond : List Char}
    (spelled : Spelled kind lexeme slice beyond)
    (notString : kind ≠ .string)
    (notNewline : kind ≠ .newline) :
    ∀ c ∈ slice, c ≠ '\n' ∧ c ≠ '\r' := by
  intro c mem
  cases spelled with
  | newline => exact absurd rfl notNewline
  | string => exact absurd rfl notString
  | mark mark =>
    obtain rfl := List.mem_singleton.1 mem
    cases mark <;> decide
  | word isWord =>
    apply ne_break_of_class
    cases slice with
    | nil => cases mem
    | cons first rest =>
      rw [Text.isWord, Bool.and_eq_true, List.all_eq_true] at isWord
      rcases List.mem_cons.1 mem with rfl | mem
      · exact .inl (Text.continuesWord_of_beginsWord isWord.1)
      · exact .inl (isWord.2 c mem)
  | number numeral =>
    apply ne_break_of_class
    cases slice with
    | nil => cases mem
    | cons first rest =>
      simp only [Token.isNumeral, Bool.and_eq_true, List.all_eq_true, Bool.or_eq_true,
        beq_iff_eq] at numeral
      rcases List.mem_cons.1 mem with rfl | mem
      · exact .inr (.inl numeral.1.1)
      · rcases numeral.1.2 c mem with digit | point
        · exact .inr (.inl digit)
        · exact .inr (.inr (.inl point))
  | pair _ isPair =>
    have signs : pairs.all (·.all isOperatorChar) = true := rfl
    have ofSlice := List.all_eq_true.1 (List.all_eq_true.1 signs slice isPair)
    exact ne_break_of_class (.inr (.inr (.inr (ofSlice c mem))))
  | run _ signs => exact ne_break_of_class (.inr (.inr (.inr (signs c mem))))

/-- A slice in which no line ends stands in the line around its place. -/
theorem lineAround_slice
    {slice : List Char}
    (nonempty : slice ≠ [])
    (noBreak : ∀ c ∈ slice, c ≠ '\n' ∧ c ≠ '\r')
    (before beyond : List Char) :
    Text.lineAround before (slice ++ beyond) =
      Text.lastLine before ++ (slice ++ Text.withoutEnding (Text.takeLine beyond).1) := by
  have oneLine : '\n' ∉ slice := fun mem => (noBreak _ mem).1 rfl
  have last : ∀ c ∈ (Text.lastLine before ++ slice).getLast?, c ≠ '\n' ∧ c ≠ '\r' := by
    intro c mem
    rw [List.getLast?_append, List.getLast?_eq_some_getLast nonempty, Option.some_or] at mem
    obtain rfl := Option.mem_some.1 mem
    exact noBreak _ (List.getLast_mem nonempty)
  rw [Text.lineAround, Text.takeLine_append_of_not_mem oneLine, ← List.append_assoc,
    Text.withoutEnding_append last, List.append_assoc]

/-- Positions tell where tokens stand.  The place of each token of a source, and of a lexical
fault, is told by the text before it.  A token other than a string, a line feed and the end stands
on one line of the source, and a diagnostic with its place and width shows that line with carets
under the lexeme. -/
theorem scan_points_at_tokens
    (source : String) :
    (∀ tokens, scan source = .ok tokens → ∀ token ∈ tokens, ∃ before after,
      source.toList = before ++ after ∧ token.position.IsBehind before ∧
      (token.kind ≠ .string → token.kind ≠ .newline → token.kind ≠ .eof →
        ∃ above line ending below,
          Text.IsLineOf source.toList above line ending below ∧
          before = above ++ line.take token.position.column ∧
          (line.drop token.position.column).take token.lexeme.length = token.lexeme.toList ∧
          ∀ diagnostic : Diagnostic,
            diagnostic.position = some token.position → diagnostic.width = token.width →
            (diagnostic.withSource source).snippet =
              some (String.ofList (line ++ '\n' ::
                (List.replicate token.position.column ' ' ++
                  List.replicate token.lexeme.length '^'))))) ∧
    (∀ fault, scan source = .error fault → ∃ place before after,
      fault.position = some place ∧ source.toList = before ++ after ∧ place.IsBehind before) := by
  constructor
  · intro tokens accepted token mem
    have tiling := (scan_eq_ok_iff_tiling source tokens).1 accepted
    by_cases isEnd : token.kind = .eof
    · obtain ⟨earlier, rfl, noEnd⟩ := tiling.exists_eof
      have last : token = ⟨.eof, "", Position.start.afterAll source.toList⟩ := by
        rcases List.mem_append.1 mem with isEarlier | isLast
        · exact absurd isEnd (noEnd token isEarlier)
        · exact List.mem_singleton.1 isLast
      refine ⟨source.toList, [], (List.append_nil _).symm, ?_, fun _ _ more => absurd isEnd more⟩
      rw [last]
      exact Position.isBehind_afterAll _
    obtain ⟨before, slice, beyond, split, place, spelled⟩ := tiling.exists_slice token mem isEnd
    refine ⟨before, slice ++ beyond, split, by rw [place]; exact Position.isBehind_afterAll _, ?_⟩
    intro notString notNewline _
    have lexeme := spelled.slice_eq_lexeme notString
    have nonempty : slice ++ beyond ≠ [] := by simp [spelled.slice_ne_nil]
    have column : token.position.column = (Text.lastLine before).length := by
      rw [place, Position.column_afterAll]
    have width : token.width = token.lexeme.length := by
      have positive := List.length_pos_iff.2 spelled.slice_ne_nil
      rw [lexeme, String.length_toList] at positive
      exact Nat.max_eq_left positive
    have around :=
      lineAround_slice spelled.slice_ne_nil (spelled.ne_break notString notNewline) before beyond
    obtain ⟨above, ending, front, isLine⟩ :=
      Text.exists_isLineOf_lineAround before (slice ++ beyond)
    refine ⟨above, _, ending, _, split ▸ isLine, ?_, ?_, fun diagnostic here wide => ?_⟩
    · rw [column, around, List.take_left]
      exact front
    · rw [column, around, List.drop_left, ← String.length_toList, ← lexeme, List.take_left]
    · rw [place] at here
      rw [Diagnostic.snippet_withSource_of_ne_nil nonempty split here, wide, width, column]
      rfl
  · intro fault refused
    obtain ⟨before, c, rest, message, tokens, split, -, rfl, -⟩ := exists_fault_of_scan refused
    exact ⟨_, before, c :: rest, rfl, split, Position.isBehind_afterAll before⟩

/-- A name with a character of two bytes, behind a string of two lines and before an ending of two
characters; and a string that is never closed behind it. -/
theorem scan_points_at_tokens_of_lines :
    let source := "'a\nb' éx\r\nc"
    let token : Token := { kind := .identifier, lexeme := "éx", position := ⟨1, 3, 6⟩ }
    (∃ tokens, scan source = .ok tokens ∧ token ∈ tokens ∧ ∃ before after,
      source.toList = before ++ after ∧ token.position.IsBehind before ∧
      ∃ above line ending below,
        Text.IsLineOf source.toList above line ending below ∧
        (line.drop 3).take 2 = ['é', 'x'] ∧
        ∀ diagnostic : Diagnostic,
          diagnostic.position = some token.position → diagnostic.width = 2 →
          (diagnostic.withSource source).snippet =
            some (String.ofList (line ++ ['\n', ' ', ' ', ' ', '^', '^']))) ∧
    ∃ place before after,
      some (⟨1, 3, 6⟩ : Position) = some place ∧ "'a\nb' 'é".toList = before ++ after ∧
      place.IsBehind before := by
  intro source token
  have scanned :
      scan "'a\nb' éx\r\nc" = .ok
        [{ kind := .string, lexeme := "a\nb", position := ⟨0, 0, 0⟩ },
         { kind := .identifier, lexeme := "éx", position := ⟨1, 3, 6⟩ },
         { kind := .newline, lexeme := "\n", position := ⟨1, 6, 10⟩ },
         { kind := .identifier, lexeme := "c", position := ⟨2, 0, 11⟩ },
         { kind := .eof, lexeme := "", position := ⟨2, 1, 12⟩ }] := by
    decide +kernel
  have refused :
      scan "'a\nb' 'é" =
        .error
          { stage := .lexer, message := "unterminated string", position := some ⟨1, 3, 6⟩ } := by
    rfl
  refine ⟨⟨_, scanned, List.mem_cons_of_mem _ List.mem_cons_self, ?_⟩,
    (scan_points_at_tokens "'a\nb' 'é").2 _ refused⟩
  obtain ⟨before, after, split, place, carets⟩ :=
    (scan_points_at_tokens source).1 _ scanned token (List.mem_cons_of_mem _ List.mem_cons_self)
  obtain ⟨above, line, ending, below, isLine, -, lexeme, shown⟩ :=
    carets nofun nofun nofun
  have length : token.lexeme.length = 2 := by decide +kernel
  have characters : token.lexeme.toList = ['é', 'x'] := by decide +kernel
  rw [length] at shown
  rw [length, characters] at lexeme
  exact ⟨before, after, split, place, above, line, ending, below, isLine, lexeme,
    fun diagnostic here wide => shown diagnostic here (by rw [wide, Token.width, length]; rfl)⟩

end Token
end TinyScript
