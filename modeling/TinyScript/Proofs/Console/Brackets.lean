import TinyScript.Console.Brackets
import TinyScript.Proofs.Grammar.Image
import TinyScript.Proofs.Token.Faults
import TinyScript.Proofs.Token.Nesting

/-!
# Brackets in a text and among its tokens

The count of open brackets in a text and the scanner read the same characters in
different ways.  A scanner knows more: forgetting all but whether it is in a
comment or in a string, and how many brackets are open among its tokens, leaves
the state of the count, and one character read keeps this so.
-/

namespace TinyScript

open Token

namespace Brackets

/-- The characters that mean something to a bracket count. -/
def noticed : List Char :=
  ['"', '\'', '#', '(', '[', '\x7b', ')', ']', '\x7d']

/-- A character that is not noticed changes nothing outside of texts and comments. -/
theorem read_of_not_mem_noticed
    {c : Char}
    (unnoticed : c ∉ noticed)
    (depth : Int) :
    read { mode := .code, depth := depth } c = { mode := .code, depth := depth } := by
  simp [noticed] at unnoticed
  simp [read, unnoticed]

end Brackets

namespace Scanner

open Brackets

/-- What a bracket count keeps of the mode of a scanner. -/
def Mode.brackets : Mode → Brackets.Mode
  | .string _ quote _ escaped => .string quote escaped
  | .comment => .comment
  | _ => .code

/-- The bracket count behind the text that a scanner has read. -/
def brackets (scanner : Scanner) : Brackets :=
  { mode := scanner.mode.brackets, depth := excess scanner.tokens }

/-! ## Characters that a count passes over -/

/-- A class of characters without any that mean something to a count. -/
theorem not_mem_noticed
    (belongs : Char → Bool)
    (apart : noticed.any belongs = false)
    {c : Char}
    (member : belongs c = true) :
    c ∉ noticed := by
  intro mem
  rw [List.any_eq_false] at apart
  exact apart c mem member

/-- No character of a word is noticed. -/
theorem not_mem_noticed_of_continuesWord
    {c : Char}
    (continues : Text.continuesWord c = true) :
    c ∉ noticed :=
  not_mem_noticed Text.continuesWord rfl continues

/-- No character of an operator is noticed. -/
theorem not_mem_noticed_of_isOperatorChar
    {c : Char}
    (operatorChar : isOperatorChar c = true) :
    c ∉ noticed :=
  not_mem_noticed isOperatorChar (by decide) operatorChar

/-- No character of a numeral is noticed. -/
theorem not_mem_noticed_of_continuesNumber
    {c : Char}
    {digits : List Char}
    (continues : continuesNumber digits c = true) :
    c ∉ noticed := by
  apply not_mem_noticed (fun d => d.isDigit || d == '.') (by decide)
  simp only [continuesNumber, Bool.or_eq_true, Bool.and_eq_true] at continues ⊢
  exact continues.imp_right And.left

/-! ## One character -/

/-- A token that is no bracket leaves the count as it is. -/
theorem excess_emit
    (scanner : Scanner)
    (kind : Kind)
    (notMark : ∀ mark, kind ≠ .mark mark)
    (lexeme : String)
    (start : Position) :
    excess (scanner.emit kind lexeme start).tokens = excess scanner.tokens := by
  have plain : excess [{ kind := kind, lexeme := lexeme, position := start }] = 0 := by
    cases kind with
    | mark mark => exact absurd rfl (notMark mark)
    | _ => rfl
  rw [emit, excess_cons, plain, Int.zero_add]

/-- No word is a bracket. -/
theorem wordKind_ne_mark
    (word : String)
    (mark : Mark) :
    wordKind word ≠ .mark mark := by
  rcases wordKind_cases word with same | ⟨_, same⟩ <;> simp [same]

theorem numberKind_ne_mark
    (digits : List Char)
    (mark : Mark) :
    numberKind digits ≠ .mark mark := by
  rcases numberKind_cases digits with same | same <;> simp [same]

theorem operatorKind_ne_mark
    (text : String)
    (mark : Mark) :
    operatorKind text ≠ .mark mark := by
  rcases operatorKind_cases text with ⟨_, same⟩ | same <;> simp [same]

/-- Words, numbers and operators are no brackets. -/
@[simp] theorem excess_complete
    (scanner : Scanner) :
    excess scanner.complete.tokens = excess scanner.tokens := by
  obtain ⟨mode, position, tokens⟩ := scanner
  cases mode with
  | word => exact excess_emit _ _ (wordKind_ne_mark _) _ _
  | number => exact excess_emit _ _ (numberKind_ne_mark _) _ _
  | operator => exact excess_emit _ _ (operatorKind_ne_mark _) _ _
  | _ => rfl

/-- To complete a token opens and closes nothing. -/
theorem brackets_complete
    (scanner : Scanner) :
    scanner.complete.brackets = scanner.brackets := by
  rw [brackets, excess_complete, brackets]
  obtain ⟨mode, position, tokens⟩ := scanner
  cases mode <;> rfl

/-- A mark counts as its character does. -/
theorem brackets_emit_mark
    (scanner : Scanner)
    (mark : Mark)
    (lexeme : String)
    (start : Position) :
    (scanner.emit (.mark mark) lexeme start).brackets =
      Brackets.read { mode := .code, depth := excess scanner.tokens } mark.spelling := by
  rw [brackets, emit, excess_cons, excess_singleton]
  cases mark
  all_goals
    simp [Mode.brackets, opens, closes, Kind.opens, Kind.closes, Mark.opens, Mark.closes,
      Mark.spelling, Brackets.read, Int.add_comm, Int.sub_eq_add_neg]

/-- A character at the beginning of a token is counted as the scanner reads it. -/
theorem brackets_readFresh
    {scanner next : Scanner}
    {c : Char}
    (reads : scanner.readFresh c = .ok next) :
    next.brackets = Brackets.read { mode := .code, depth := excess scanner.tokens } c := by
  unfold readFresh at reads
  simp only at reads
  split at reads
  case isTrue lineFeed =>
    cases reads
    subst lineFeed
    rw [read_of_not_mem_noticed (by decide)]
    rw [brackets, excess_emit _ .newline (by simp)]
    rfl
  split at reads
  case isTrue blank =>
    cases reads
    rw [read_of_not_mem_noticed (not_mem_noticed Text.isBlank rfl blank)]
    rfl
  split at reads
  case isTrue hash =>
    cases reads
    subst hash
    rfl
  split at reads
  case isTrue isQuote =>
    cases reads
    simp [brackets, Brackets.read, isQuote, Mode.brackets, advance]
  split at reads
  case isTrue digit =>
    cases reads
    rw [read_of_not_mem_noticed (not_mem_noticed Char.isDigit rfl digit)]
    rfl
  split at reads
  case isTrue begins =>
    cases reads
    rw [read_of_not_mem_noticed (not_mem_noticed Text.beginsWord rfl begins)]
    rfl
  split at reads
  case isTrue operatorChar =>
    cases reads
    rw [read_of_not_mem_noticed (not_mem_noticed_of_isOperatorChar operatorChar)]
    rfl
  split at reads
  case h_1 mark isMark =>
    cases reads
    have spelled : mark.spelling = c := by
      simpa using List.find?_some isMark
    rw [← spelled]
    exact brackets_emit_mark _ mark _ _
  case h_2 => cases reads

/-- The count keeps up with the scanner. -/
theorem brackets_read
    {scanner next : Scanner}
    {c : Char}
    (reads : scanner.read c = .ok next) :
    next.brackets = scanner.brackets.read c := by
  obtain ⟨mode, position, tokens⟩ := scanner
  cases mode with
  | between => exact brackets_readFresh reads
  | comment =>
    simp only [read] at reads
    split at reads
    case isTrue lineFeed =>
      subst lineFeed
      exact brackets_readFresh reads
    case isFalse goesOn =>
      cases reads
      simp [brackets, Mode.brackets, Brackets.read, advance, goesOn]
  | word start letters =>
    simp only [read] at reads
    split at reads
    case isTrue continues =>
      cases reads
      exact (read_of_not_mem_noticed (not_mem_noticed_of_continuesWord continues) _).symm
    case isFalse =>
      rw [brackets_readFresh reads, excess_complete]
      rfl
  | number start digits =>
    simp only [read] at reads
    split at reads
    case isTrue continues =>
      cases reads
      exact (read_of_not_mem_noticed (not_mem_noticed_of_continuesNumber continues) _).symm
    case isFalse =>
      rw [brackets_readFresh reads, excess_complete]
      rfl
  | operator start signs =>
    simp only [read] at reads
    split at reads
    case isTrue operatorChar =>
      have same := read_of_not_mem_noticed (not_mem_noticed_of_isOperatorChar operatorChar)
      split at reads
      case isTrue =>
        cases reads
        rw [brackets_complete]
        exact (same _).symm
      case isFalse =>
        cases reads
        exact (same _).symm
    case isFalse =>
      rw [brackets_readFresh reads, excess_complete]
      rfl
  | string start quote text escaped =>
    simp only [read] at reads
    split at reads
    case isTrue wasEscaped =>
      cases reads
      simp [brackets, Mode.brackets, Brackets.read, advance, wasEscaped]
    case isFalse plain =>
    split at reads
    case isTrue backslash =>
      cases reads
      simp [brackets, Mode.brackets, Brackets.read, advance, plain, backslash]
    case isFalse noBackslash =>
    split at reads
    case isTrue ends =>
      cases reads
      subst ends
      rw [brackets, excess_emit _ .string (by simp)]
      simp [brackets, Mode.brackets, Brackets.read, advance, emit, plain, noBackslash]
    case isFalse goesOn =>
      cases reads
      simp [brackets, Mode.brackets, Brackets.read, advance, plain, noBackslash, goesOn]

/-- The count and the scanner read any text alike. -/
theorem brackets_readAll
    {text : List Char}
    {scanner last : Scanner}
    (reads : scanner.readAll text = .ok last) :
    last.brackets = text.foldl Brackets.read scanner.brackets := by
  induction text generalizing scanner with
  | nil =>
    cases reads
    rfl
  | cons c rest ih =>
    cases step : scanner.read c with
    | error diagnostic =>
      simp only [readAll, List.foldlM_cons, step, bind, Except.bind] at reads
      cases reads
    | ok next =>
      simp only [readAll, List.foldlM_cons, step, bind, Except.bind] at reads
      rw [List.foldl_cons, ← brackets_read step]
      exact ih reads

end Scanner

namespace Brackets

open Scanner

/-- When the scanner has read all of a source, the depth is the excess of its tokens. -/
theorem depthOf_of_readAll
    {source : String}
    {scanner : Scanner}
    (reads : Scanner.initial.readAll source.toList = .ok scanner) :
    depthOf source = excess scanner.tokens := by
  have same := brackets_readAll reads
  exact (congrArg Brackets.depth same).symm

/-- The tokens of a source have as many open brackets as its text. -/
theorem depthOf_of_scan
    {source : String}
    {tokens : List Token}
    (accepted : scan source = .ok tokens) :
    depthOf source = excess tokens := by
  obtain ⟨scanner, reads, _, rfl⟩ := exists_readAll_of_scan accepted
  rw [depthOf_of_readAll reads, excess_reverse, excess_emit _ .eof (by simp), excess_complete]

/-- A source that ends in a string has as many open brackets in its text as there are among the
tokens of what stands before the quote that opens the string. -/
theorem exists_opening_of_unterminated
    {source : String}
    {diagnostic : Diagnostic}
    (refused : scan source = .error diagnostic)
    (unterminated : diagnostic.message = "unterminated string") :
    ∃ before quote rest tokens,
      source.toList = before ++ quote :: rest ∧
      (quote = '"' ∨ quote = '\'') ∧
      diagnostic.position = some (Position.start.afterAll before) ∧
      scan (String.ofList before) = .ok tokens ∧
      depthOf source = excess tokens := by
  cases readings : Scanner.initial.readAll source.toList with
  | error other =>
    rw [scan, readings] at refused
    cases refused
    obtain ⟨_, c, _, _, _, _, fault⟩ := exists_read_eq_error readings
    obtain ⟨_, rfl⟩ := read_eq_error fault
    have texts := congrArg String.toList unterminated
    simp at texts
  | ok scanner =>
    rw [scan, readings] at refused
    obtain ⟨start, quote, inside, escaped, inString, rfl⟩ := finish_eq_error refused
    obtain ⟨before, rest, split, isQuote, rfl, scanned⟩ :=
      exists_opening_of_readAll readings inString
    refine ⟨before, quote, rest, _, split, isQuote, rfl, scanned, ?_⟩
    rw [depthOf_of_readAll readings, excess_append, excess_reverse, excess_singleton]
    exact (Int.add_zero _).symm

/-- In every source that is scanned, as many brackets are open in the text as among the tokens.
In a source that ends in a string, they are those that are open among the tokens of what stands
before the quote that opens the string. -/
theorem depthOf_eq_excess
    (source : String) :
    (∀ tokens, scan source = .ok tokens → depthOf source = excess tokens) ∧
      ∀ diagnostic, scan source = .error diagnostic →
        diagnostic.message = "unterminated string" →
        ∃ before quote rest tokens,
          source.toList = before ++ quote :: rest ∧
          (quote = '"' ∨ quote = '\'') ∧
          diagnostic.position = some (Position.start.afterAll before) ∧
          scan (String.ofList before) = .ok tokens ∧
          depthOf source = excess tokens := by
  constructor
  · intro tokens accepted
    exact depthOf_of_scan accepted
  · intro diagnostic refused unterminated
    exact exists_opening_of_unterminated refused unterminated

/-- A source with brackets in a comment and in a string, and one that ends in a string behind an
escaped quote. -/
theorem depthOf_eq_excess_of_mixed :
    depthOf "(#[\n'\x7b'" =
        excess
          [{ kind := .mark .openParen, lexeme := "(", position := ⟨0, 0, 0⟩ },
           { kind := .newline, lexeme := "\n", position := ⟨0, 3, 3⟩ },
           { kind := .string, lexeme := "\x7b", position := ⟨1, 0, 4⟩ },
           { kind := .eof, lexeme := "", position := ⟨1, 3, 7⟩ }] ∧
      ∃ before quote rest tokens,
        "[']\\'".toList = before ++ quote :: rest ∧
        (quote = '"' ∨ quote = '\'') ∧
        some ⟨0, 1, 1⟩ = some (Position.start.afterAll before) ∧
        scan (String.ofList before) = .ok tokens ∧
        depthOf "[']\\'" = excess tokens := by
  refine ⟨(depthOf_eq_excess "(#[\n'\x7b'").1 _ (by rfl), ?_⟩
  have refused :
      scan "[']\\'" =
        .error
          { stage := .lexer
            message := "unterminated string"
            position := some ⟨0, 1, 1⟩ } := by
    rfl
  exact (depthOf_eq_excess "[']\\'").2 _ refused rfl

end Brackets
end TinyScript
