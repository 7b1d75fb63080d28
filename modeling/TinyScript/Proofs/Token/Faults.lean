import Mathlib.Data.List.Induction
import TinyScript.Proofs.Token.Tiling

/-!
# Sources that cannot be scanned

A source is refused at a character that no token can begin with, or at a quote
that opens a string without an end.  What stands before that place is a source
of its own (`exists_fault_of_scan`), so the tokens before a fault are the tokens
of that source.
-/

namespace TinyScript
namespace Scanner

open Token

/-! ## Places -/

@[simp] theorem position_complete
    (scanner : Scanner) :
    scanner.complete.position = scanner.position := by
  unfold complete
  split <;> rfl

theorem position_readFresh
    {scanner next : Scanner}
    {c : Char}
    (reads : scanner.readFresh c = .ok next) :
    next.position = scanner.position.after c := by
  unfold readFresh at reads
  simp only at reads
  repeat' split at reads
  all_goals cases reads
  all_goals rfl

/-- Every character moves a scanner on by its own width. -/
theorem position_read
    {scanner next : Scanner}
    {c : Char}
    (reads : scanner.read c = .ok next) :
    next.position = scanner.position.after c := by
  unfold read at reads
  repeat' split at reads
  all_goals first
    | exact position_readFresh reads
    | rw [position_readFresh reads, position_complete]
    | cases reads
      simp only [advance, emit, position_complete]

/-! ## Reading one character more -/

theorem readAll_append_singleton
    {scanner last : Scanner}
    {text : List Char}
    {c : Char}
    (reads : scanner.readAll (text ++ [c]) = .ok last) :
    ∃ next, scanner.readAll text = .ok next ∧ next.read c = .ok last := by
  rw [readAll_append] at reads
  cases earlier : scanner.readAll text with
  | error diagnostic =>
    rw [earlier] at reads
    cases reads
  | ok next =>
    rw [earlier] at reads
    refine ⟨next, rfl, ?_⟩
    cases later : next.read c with
    | error diagnostic =>
      simp [readAll, later, bind, Except.bind] at reads
    | ok beyond =>
      simpa [readAll, later, bind, Except.bind, pure, Except.pure] using reads

/-- A scanner is as far behind the beginning as the text that it has read is long. -/
theorem position_readAll
    {text : List Char}
    {scanner : Scanner}
    (reads : initial.readAll text = .ok scanner) :
    scanner.position = Position.start.afterAll text := by
  induction text using List.reverseRecOn generalizing scanner with
  | nil =>
    cases reads
    rfl
  | append_singleton text c ih =>
    obtain ⟨next, earlier, reads⟩ := readAll_append_singleton reads
    rw [position_read reads, ih earlier, Position.afterAll_append]
    rfl

/-! ## Strings without an end -/

/-- A scanner that is not in a string can end its source. -/
def Mode.isString : Mode → Bool
  | .string .. => true
  | _ => false

theorem finish_of_isString_eq_false
    {scanner : Scanner}
    (outside : scanner.mode.isString = false) :
    scanner.finish =
      .ok (scanner.complete.emit .eof "" scanner.position).tokens.reverse := by
  obtain ⟨mode, position, tokens⟩ := scanner
  cases mode with
  | string => cases outside
  | _ => rfl

/-- A source that a scanner has read outside a string is accepted. -/
theorem scan_of_readAll
    {text : List Char}
    {scanner : Scanner}
    (reads : initial.readAll text = .ok scanner)
    (outside : scanner.mode.isString = false) :
    scan (String.ofList text) =
      .ok (scanner.complete.tokens.reverse ++
        [{ kind := .eof, lexeme := "", position := Position.start.afterAll text }]) := by
  rw [scan, String.toList_ofList, reads, ← position_readAll reads]
  change scanner.finish = _
  rw [finish_of_isString_eq_false outside]
  exact congrArg Except.ok List.reverse_cons

/-- The tokens of a source are those of the scanner behind its text, which is in no string. -/
theorem exists_readAll_of_scan
    {source : String}
    {tokens : List Token}
    (accepted : scan source = .ok tokens) :
    ∃ scanner, initial.readAll source.toList = .ok scanner ∧ scanner.mode.isString = false ∧
      tokens = (scanner.complete.emit .eof "" scanner.position).tokens.reverse := by
  cases readings : initial.readAll source.toList with
  | error diagnostic =>
    rw [scan, readings] at accepted
    cases accepted
  | ok scanner =>
    rw [scan, readings] at accepted
    have outside : scanner.mode.isString = false := by
      cases place : scanner.mode with
      | string =>
        change scanner.finish = _ at accepted
        rw [finish, place] at accepted
        cases accepted
      | _ => rfl
    have ended := (finish_of_isString_eq_false outside).symm.trans accepted
    exact ⟨scanner, rfl, outside, (Except.ok.inj ended).symm⟩

/-- Outside a string a character goes on with what is begun, or is read afresh behind it. -/
theorem read_outside
    {scanner : Scanner}
    (outside : scanner.mode.isString = false)
    (c : Char) :
    (∃ next, scanner.read c = .ok next ∧ next.mode.isString = false) ∨
      scanner.read c = (atBoundary scanner.position scanner.complete.tokens).readFresh c := by
  obtain ⟨mode, position, tokens⟩ := scanner
  cases mode with
  | between => exact .inr rfl
  | comment =>
    by_cases ends : c = '\n'
    · exact .inr (if_pos ends)
    · exact .inl ⟨_, if_neg ends, rfl⟩
  | word start letters =>
    by_cases continues : Text.continuesWord c = true
    · exact .inl ⟨_, if_pos continues, rfl⟩
    · exact .inr (if_neg continues)
  | number start digits =>
    by_cases continues : continuesNumber digits c = true
    · exact .inl ⟨_, if_pos continues, rfl⟩
    · exact .inr (if_neg continues)
  | operator start signs =>
    by_cases continues : isOperatorChar c = true
    · left
      by_cases pair : completesPair signs c = true
      · exact ⟨_, (if_pos continues).trans (if_pos pair), rfl⟩
      · exact ⟨_, (if_pos continues).trans (if_neg pair), rfl⟩
    · exact .inr (if_neg continues)
  | string => cases outside

/-- A scanner that reads a character afresh comes into a string only by a quote. -/
theorem mode_of_readFresh
    {scanner next : Scanner}
    {c quote : Char}
    {start : Position}
    {text : List Char}
    {escaped : Bool}
    (reads : scanner.readFresh c = .ok next)
    (inString : next.mode = .string start quote text escaped) :
    (quote = '"' ∨ quote = '\'') ∧ c = quote ∧ start = scanner.position ∧
      next.tokens = scanner.tokens := by
  unfold readFresh at reads
  simp only at reads
  repeat' split at reads
  all_goals cases reads
  all_goals cases inString
  case refl isQuote => exact ⟨isQuote, rfl, rfl, rfl⟩

/-- A scanner in a string was in it before the last character, or that is the quote which
opened it. -/
theorem mode_of_read
    {scanner next : Scanner}
    {c quote : Char}
    {start : Position}
    {text : List Char}
    {escaped : Bool}
    (reads : scanner.read c = .ok next)
    (inString : next.mode = .string start quote text escaped) :
    (∃ before wasEscaped, scanner.mode = .string start quote before wasEscaped ∧
        next.tokens = scanner.tokens) ∨
      scanner.mode.isString = false ∧ (quote = '"' ∨ quote = '\'') ∧ c = quote ∧
        start = scanner.position ∧ next.tokens = scanner.complete.tokens := by
  cases place : scanner.mode with
  | string begun opened earlier wasEscaped =>
    left
    refine ⟨earlier, wasEscaped, ?_⟩
    simp only [read, place] at reads
    repeat' split at reads
    all_goals cases reads
    all_goals cases inString
    all_goals exact ⟨rfl, rfl⟩
  | _ =>
    right
    have outside : scanner.mode.isString = false := by
      rw [place]
      rfl
    refine ⟨rfl, ?_⟩
    rcases read_outside outside c with ⟨other, steps, stays⟩ | fresh
    · rw [steps] at reads
      cases reads
      rw [inString] at stays
      cases stays
    · rw [fresh] at reads
      exact mode_of_readFresh reads inString

/-- A scanner that is in a string behind a text has passed the quote that opened it, and what
stands before that quote is a source with the same tokens. -/
theorem exists_opening_of_readAll
    {text : List Char}
    {scanner : Scanner}
    {quote : Char}
    {start : Position}
    {inside : List Char}
    {escaped : Bool}
    (reads : initial.readAll text = .ok scanner)
    (inString : scanner.mode = .string start quote inside escaped) :
    ∃ before rest, text = before ++ quote :: rest ∧ (quote = '"' ∨ quote = '\'') ∧
      start = Position.start.afterAll before ∧
      Token.scan (String.ofList before) =
        .ok (scanner.tokens.reverse ++ [{ kind := .eof, lexeme := "", position := start }]) := by
  induction text using List.reverseRecOn generalizing scanner inside escaped with
  | nil =>
    cases reads
    cases inString
  | append_singleton text c ih =>
    obtain ⟨previous, earlier, reads⟩ := readAll_append_singleton reads
    rcases mode_of_read reads inString with
      ⟨body, wasEscaped, within, same⟩ | ⟨outside, isQuote, rfl, rfl, same⟩
    · obtain ⟨before, rest, rfl, isQuote, place, scanned⟩ := ih earlier within
      refine ⟨before, rest ++ [c], by simp, isQuote, place, ?_⟩
      rw [same]
      exact scanned
    · refine ⟨text, [], rfl, isQuote, position_readAll earlier, ?_⟩
      rw [same, position_readAll earlier]
      exact scan_of_readAll earlier outside

/-! ## Sources that are refused -/

/-- A source that ends in a string is refused for the string, at the quote that opened it, and no
other. -/
theorem finish_eq_error
    {scanner : Scanner}
    {diagnostic : Diagnostic}
    (refused : scanner.finish = .error diagnostic) :
    ∃ start quote text escaped, scanner.mode = .string start quote text escaped ∧
      diagnostic =
        { stage := .lexer, message := "unterminated string", position := some start } := by
  obtain ⟨mode, position, tokens⟩ := scanner
  cases mode with
  | string start quote text escaped =>
    cases refused
    exact ⟨start, quote, text, escaped, rfl, rfl⟩
  | _ => cases refused

/-- A text that cannot be read has a first character that cannot be. -/
theorem exists_read_eq_error
    {text : List Char}
    {scanner : Scanner}
    {diagnostic : Diagnostic}
    (refused : scanner.readAll text = .error diagnostic) :
    ∃ before c rest next, text = before ++ c :: rest ∧ scanner.readAll before = .ok next ∧
      next.read c = .error diagnostic := by
  induction text generalizing scanner with
  | nil => cases refused
  | cons c rest ih =>
    cases step : scanner.read c with
    | error other =>
      simp only [readAll, List.foldlM_cons, step, bind, Except.bind] at refused
      cases refused
      exact ⟨[], c, rest, scanner, rfl, rfl, step⟩
    | ok middle =>
      simp only [readAll, List.foldlM_cons, step, bind, Except.bind] at refused
      obtain ⟨before, d, beyond, next, rfl, reads, fault⟩ := ih refused
      refine ⟨c :: before, d, beyond, next, rfl, ?_, fault⟩
      simpa only [readAll, List.foldlM_cons, step, bind, Except.bind] using reads

/-- Only a character that no token can begin with cannot be read. -/
theorem read_eq_error
    {scanner : Scanner}
    {c : Char}
    {diagnostic : Diagnostic}
    (refused : scanner.read c = .error diagnostic) :
    scanner.mode.isString = false ∧
      diagnostic =
        { stage := .lexer
          message := "unexpected character `" ++ String.singleton c ++ "`"
          position := some scanner.position } := by
  have outside : scanner.mode.isString = false := by
    cases place : scanner.mode with
    | string =>
      simp only [read, place] at refused
      repeat' split at refused
      all_goals cases refused
    | _ => rfl
  refine ⟨outside, ?_⟩
  rcases read_outside outside c with ⟨next, reads, _⟩ | fresh
  · rw [reads] at refused
    cases refused
  · rw [fresh, readFresh] at refused
    repeat' split at refused
    all_goals cases refused
    rfl

/-- A source is refused while it is read, outside a string, or at its end, in one. -/
theorem exists_refusal_of_scan
    {source : String}
    {diagnostic : Diagnostic}
    (refused : scan source = .error diagnostic) :
    (∃ before c rest scanner,
      source.toList = before ++ c :: rest ∧ initial.readAll before = .ok scanner ∧
        scanner.read c = .error diagnostic) ∨
      ∃ scanner start quote text escaped,
        initial.readAll source.toList = .ok scanner ∧
        scanner.mode = .string start quote text escaped ∧
        diagnostic =
          { stage := .lexer, message := "unterminated string", position := some start } := by
  cases readings : initial.readAll source.toList with
  | error other =>
    rw [scan, readings] at refused
    cases refused
    exact .inl (exists_read_eq_error readings)
  | ok scanner =>
    rw [scan, readings] at refused
    obtain ⟨start, quote, text, escaped, inString, rfl⟩ := finish_eq_error refused
    exact .inr ⟨scanner, start, quote, text, escaped, rfl, inString, rfl⟩

/-- A source is refused at a character that no token begins with or at a quote that is never
closed, and what stands before that place is scanned. -/
theorem exists_fault_of_scan
    {source : String}
    {diagnostic : Diagnostic}
    (refused : scan source = .error diagnostic) :
    ∃ before c rest message tokens,
      source.toList = before ++ c :: rest ∧
      scan (String.ofList before) = .ok tokens ∧
      diagnostic =
        { stage := .lexer
          message := message
          position := some (Position.start.afterAll before) } ∧
      (message = "unterminated string" ∧ (c = '"' ∨ c = '\'') ∨
        message = "unexpected character `" ++ String.singleton c ++ "`") := by
  rcases exists_refusal_of_scan refused with
    ⟨before, c, rest, scanner, split, reads, fault⟩ |
      ⟨scanner, start, quote, text, escaped, reads, inString, rfl⟩
  · obtain ⟨outside, rfl⟩ := read_eq_error fault
    exact ⟨before, c, rest, _, _, split, scan_of_readAll reads outside,
      by rw [position_readAll reads], .inr rfl⟩
  · obtain ⟨before, rest, split, isQuote, rfl, scanned⟩ := exists_opening_of_readAll reads inString
    exact ⟨before, quote, rest, _, _, split, scanned, rfl, .inl ⟨rfl, isQuote⟩⟩

end Scanner
end TinyScript
