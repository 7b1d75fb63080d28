import TinyScript.Proofs.Token.Faults

/-!
# What a refusal says of a source

A source is refused for no more of it than has been read when the fault is seen.  A character that
no token can hold is refused whatever follows it, and a string without an end lacks nothing but its
end.
-/

namespace TinyScript
namespace Scanner

open Token

/-- A character that cannot be read is refused whatever stands behind it. -/
theorem scan_of_read_eq_error
    {before more : List Char}
    {scanner : Scanner}
    {c : Char}
    {diagnostic : Diagnostic}
    (reads : initial.readAll before = .ok scanner)
    (fault : scanner.read c = .error diagnostic)
    {source : String}
    (split : source.toList = before ++ c :: more) :
    scan source = .error diagnostic := by
  rw [scan, split, readAll_append, reads]
  change scanner.scanRest (c :: more) = _
  rw [scanRest_cons, fault]
  rfl

/-! ## Strings that lack their end -/

/-- What a source is scanned as when it ends behind a string. -/
theorem scanRest_closing
    {start position : Position}
    {quote : Char}
    {tokens : List Token}
    (isQuote : quote = '"' ∨ quote = '\'')
    (text : List Char) :
    scanRest { mode := .string start quote text false, position := position, tokens := tokens }
        [quote] =
      .ok (tokens.reverse ++
        [{ kind := .string, lexeme := String.ofList text.reverse, position := start },
          { kind := .eof, lexeme := "", position := position.after quote }]) := by
  have closed :
      scanRest { mode := .string start quote text false, position := position, tokens := tokens }
          [quote] =
        scanRest
          (atBoundary (position.after quote)
            ({ kind := .string, lexeme := String.ofList (text.reverse ++ []),
               position := start } :: tokens))
          [] :=
    scanRest_quoted isQuote .nil text
  rw [closed, scanRest_nil, List.append_nil]
  simp [finish, atBoundary, complete, emit]

/-- A scanner in a string needs one more quote to be out of it, or two if a backslash has been read
just before. -/
theorem exists_scanRest_closing
    (start position : Position)
    {quote : Char}
    (tokens : List Token)
    (isQuote : quote = '"' ∨ quote = '\'')
    (text : List Char)
    (escaped : Bool) :
    ∃ quotes ∈ [[quote], [quote, quote]], ∃ lexeme,
      scanRest
          { mode := .string start quote text escaped, position := position, tokens := tokens }
          quotes =
        .ok (tokens.reverse ++
          [{ kind := .string, lexeme := lexeme, position := start },
            { kind := .eof, lexeme := "", position := position.afterAll quotes }]) := by
  cases escaped with
  | false => exact ⟨[quote], List.mem_cons_self, _, scanRest_closing isQuote text⟩
  | true =>
    -- The first quote is one of the characters of the string.
    have step :
        read { mode := .string start quote text true, position := position, tokens := tokens }
            quote =
          .ok { mode := .string start quote (unescape quote :: text) false,
                position := position.after quote, tokens := tokens } :=
      rfl
    refine ⟨[quote, quote], by simp, String.ofList (unescape quote :: text).reverse, ?_⟩
    rw [scanRest_cons_of_read step, scanRest_closing isQuote]
    rfl

theorem exists_scan_closed
    {source : String}
    {scanner : Scanner}
    {start : Position}
    {quote : Char}
    {text : List Char}
    {escaped : Bool}
    (reads : initial.readAll source.toList = .ok scanner)
    (inString : scanner.mode = .string start quote text escaped)
    (isQuote : quote = '"' ∨ quote = '\'') :
    ∃ closed ∈ [source.push quote, (source.push quote).push quote], ∃ lexeme,
      scan closed =
        .ok (scanner.tokens.reverse ++
          [{ kind := .string, lexeme := lexeme, position := start },
            { kind := .eof
              lexeme := ""
              position := Position.start.afterAll closed.toList }]) := by
  obtain ⟨mode, position, tokens⟩ := scanner
  obtain rfl : mode = .string start quote text escaped := inString
  obtain ⟨quotes, mem, lexeme, closes⟩ :=
    exists_scanRest_closing start position tokens isQuote text escaped
  have place : position = Position.start.afterAll source.toList := position_readAll reads
  have whole {closed : String} (split : closed.toList = source.toList ++ quotes) :
      scan closed =
        .ok (tokens.reverse ++
          [{ kind := .string, lexeme := lexeme, position := start },
            { kind := .eof
              lexeme := ""
              position := Position.start.afterAll closed.toList }]) := by
    rw [split, Position.afterAll_append, ← place, ← closes, scan, split, readAll_append, reads]
    rfl
  simp only [List.mem_cons, List.not_mem_nil, or_false] at mem
  rcases mem with rfl | rfl
  · exact ⟨_, List.mem_cons_self, lexeme, whole (by simp)⟩
  · exact ⟨_, List.mem_cons_of_mem _ List.mem_cons_self, lexeme, whole (by simp)⟩

/-- Where a source is refused, what stands before that place is accepted.  Either the character
there can be in no token, and every source that begins as far is refused with the same diagnostic;
or it is a quote, and the source with one or two more of these quotes behind it is accepted, as the
tokens before that place and one string. -/
theorem scan_refused_at_first_fault
    (source : String)
    (diagnostic : Diagnostic)
    (refused : scan source = .error diagnostic) :
    ∃ before c rest place done,
      source.toList = before ++ c :: rest ∧
      diagnostic.position = some place ∧
      place.offset = (String.ofList before).utf8ByteSize ∧
      scan (String.ofList before) =
        .ok (done ++ [{ kind := .eof, lexeme := "", position := place }]) ∧
      (diagnostic =
          { stage := .lexer
            message := "unexpected character `" ++ String.singleton c ++ "`"
            position := some place } ∧
          (∀ other more, String.toList other = before ++ c :: more →
            scan other = .error diagnostic) ∨
        diagnostic =
          { stage := .lexer, message := "unterminated string", position := some place } ∧
          (c = '"' ∨ c = '\'') ∧
          ∃ closed ∈ [source.push c, (source.push c).push c], ∃ lexeme ending,
            scan closed =
              .ok (done ++
                [{ kind := .string, lexeme := lexeme, position := place },
                  { kind := .eof, lexeme := "", position := ending }])) := by
  have offset (before : List Char) :
      (Position.start.afterAll before).offset = (String.ofList before).utf8ByteSize := by
    rw [Position.offset_afterAll]
    exact Nat.zero_add _
  rcases exists_refusal_of_scan refused with
    ⟨before, c, rest, scanner, split, reads, fault⟩ |
      ⟨scanner, start, quote, text, escaped, reads, inString, rfl⟩
  · obtain ⟨outside, rfl⟩ := read_eq_error fault
    have place := position_readAll reads
    exact ⟨before, c, rest, _, _, split, congrArg some place, offset before,
      scan_of_readAll reads outside,
      .inl ⟨by rw [place], fun other more => scan_of_read_eq_error reads fault⟩⟩
  · obtain ⟨before, rest, split, isQuote, rfl, scanned⟩ := exists_opening_of_readAll reads inString
    obtain ⟨closed, mem, lexeme, accepted⟩ := exists_scan_closed reads inString isQuote
    exact ⟨before, quote, rest, _, _, split, rfl, offset before, scanned,
      .inr ⟨rfl, isQuote, closed, mem, lexeme, _, accepted⟩⟩

/-- Behind a backslash a quote does not end the string, so two of them are lacking. -/
theorem scan_refused_at_first_fault_of_backslash :
    ∃ before c rest place done,
      "1'é\\".toList = before ++ c :: rest ∧
      some (⟨0, 1, 1⟩ : Position) = some place ∧
      place.offset = (String.ofList before).utf8ByteSize ∧
      scan (String.ofList before) =
        .ok (done ++ [{ kind := .eof, lexeme := "", position := place }]) ∧
      ∃ closed ∈ ["1'é\\".push c, ("1'é\\".push c).push c], ∃ lexeme ending,
        scan closed =
          .ok (done ++
            [{ kind := .string, lexeme := lexeme, position := place },
              { kind := .eof, lexeme := "", position := ending }]) := by
  have refused :
      scan "1'é\\" = .error
        { stage := .lexer, message := "unterminated string", position := some ⟨0, 1, 1⟩ } := by
    rfl
  obtain ⟨before, c, rest, place, done, split, same, offset, scanned, fault⟩ :=
    scan_refused_at_first_fault _ _ refused
  rcases fault with ⟨unexpected, -⟩ | ⟨-, -, closed⟩
  · have message := congrArg (·.message.toList) unexpected
    simp at message
  · exact ⟨before, c, rest, place, done, split, same, offset, scanned, closed⟩

end Scanner
end TinyScript
