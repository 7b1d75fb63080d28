import TinyScript.Proofs.Token.Spelling

/-!
# Scanning slice by slice

A scanner reads one character at a time.  Here its work is taken together: between
two tokens it passes over a gap, and takes the slice of a token as a whole.  At
most one class of characters can begin a token, so the first character decides
what the scanner is in the middle of next.
-/

namespace TinyScript
namespace Text

/-- Two lists of ranges without a common code point have no character in common. -/
theorem any_contains_eq_false_of_disjoint
    {ranges others : List CodeRange}
    (disjoint : ∀ range ∈ ranges, ∀ other ∈ others, range.2 < other.1 ∨ other.2 < range.1)
    {c : Char}
    (inside : ranges.any (·.contains c) = true) :
    others.any (·.contains c) = false := by
  obtain ⟨range, mem, low, high⟩ : ∃ range ∈ ranges, range.1 ≤ c.toNat ∧ c.toNat ≤ range.2 := by
    simpa [CodeRange.contains] using inside
  rw [List.any_eq_false]
  intro other otherMem within
  have bounds : other.1 ≤ c.toNat ∧ c.toNat ≤ other.2 := by
    simpa [CodeRange.contains] using within
  have apart := disjoint range mem other otherMem
  omega

/-- The letters of ASCII are those of two ranges. -/
theorem isAlpha_iff
    (c : Char) :
    c.isAlpha = true ↔
      (65 ≤ c.toNat ∧ c.toNat ≤ 90) ∨ (97 ≤ c.toNat ∧ c.toNat ≤ 122) := by
  have upper : c.isUpper = true ↔ 65 ≤ c.toNat ∧ c.toNat ≤ 90 := decide_eq_true_iff
  have lower : c.isLower = true ↔ 97 ≤ c.toNat ∧ c.toNat ≤ 122 := by
    change (decide (97 ≤ c.toNat) && decide (c.toNat ≤ 122)) = true ↔ _
    rw [Bool.and_eq_true_iff, decide_eq_true_iff, decide_eq_true_iff]
  change (c.isUpper || c.isLower) = true ↔ _
  rw [Bool.or_eq_true_iff, upper, lower]

/-- White space is not alphabetic. -/
theorem isAlphabetic_eq_false_of_isBlank
    {c : Char}
    (blank : isBlank c = true) :
    isAlphabetic c = false := by
  unfold isAlphabetic
  split
  · have low : c.toNat ≤ 32 := by
      simp [isBlank, blankRanges, CodeRange.contains] at blank
      omega
    rw [← Bool.not_eq_true, isAlpha_iff]
    omega
  · exact any_contains_eq_false_of_disjoint (by decide +kernel) blank

/-- A digit of ASCII is not alphabetic. -/
theorem isAlphabetic_eq_false_of_isDigit
    {c : Char}
    (digit : c.isDigit = true) :
    isAlphabetic c = false := by
  have bounds : 48 ≤ c.toNat ∧ c.toNat ≤ 57 := by
    simpa [Char.isDigit, UInt32.le_iff_toNat_le] using digit
  have ascii : c.toNat < 128 := Nat.lt_of_le_of_lt bounds.2 (by decide)
  rw [isAlphabetic, if_pos ascii, ← Bool.not_eq_true, isAlpha_iff]
  omega

/-- A digit of ASCII is no white space. -/
theorem isBlank_eq_false_of_isDigit
    {c : Char}
    (digit : c.isDigit = true) :
    isBlank c = false := by
  have bounds : 48 ≤ c.toNat ∧ c.toNat ≤ 57 := by
    simpa [Char.isDigit, UInt32.le_iff_toNat_le] using digit
  simp [isBlank, blankRanges, CodeRange.contains]
  omega

/-- What begins a word is no white space. -/
theorem isBlank_eq_false_of_beginsWord
    {c : Char}
    (begins : beginsWord c = true) :
    isBlank c = false := by
  rw [beginsWord, Bool.or_eq_true] at begins
  rcases begins with alphabetic | underscore
  · rw [Bool.eq_false_iff]
    intro blank
    rw [isAlphabetic_eq_false_of_isBlank blank] at alphabetic
    exact Bool.false_ne_true alphabetic
  · rw [beq_iff_eq] at underscore
    subst underscore
    rfl

/-- What begins a word is no digit. -/
theorem isDigit_eq_false_of_beginsWord
    {c : Char}
    (begins : beginsWord c = true) :
    c.isDigit = false := by
  rw [Bool.eq_false_iff]
  intro digit
  rw [beginsWord, isAlphabetic_eq_false_of_isDigit digit, Bool.false_or, beq_iff_eq] at begins
  subst begins
  exact absurd digit (by decide)

end Text

namespace Scanner

open Token

/-- The tokens that a scanner comes to when it reads a text and the source then ends. -/
def scanRest (scanner : Scanner) (text : List Char) : Except Diagnostic (List Token) :=
  scanner.readAll text >>= finish

/-- A scanner between two tokens. -/
def atBoundary (position : Position) (tokens : List Token) : Scanner :=
  { mode := .between, position := position, tokens := tokens }

@[simp] theorem scanRest_nil (scanner : Scanner) : scanner.scanRest [] = scanner.finish :=
  rfl

theorem scanRest_cons (scanner : Scanner) (c : Char) (text : List Char) :
    scanner.scanRest (c :: text) = scanner.read c >>= fun next => next.scanRest text := by
  simp only [scanRest, readAll, List.foldlM_cons, bind_assoc]

/-- A character that is read without a fault is followed by the rest. -/
theorem scanRest_cons_of_read
    {scanner next : Scanner}
    {c : Char}
    (step : scanner.read c = .ok next)
    (text : List Char) :
    scanner.scanRest (c :: text) = next.scanRest text := by
  rw [scanRest_cons, step]
  rfl

/-! ## The first character of a slice -/

section FirstCharacter

variable (position : Position) (tokens : List Token)

theorem read_lineFeed :
    (atBoundary position tokens).read '\n' =
      .ok (atBoundary (position.after '\n')
        ({ kind := .newline, lexeme := "\n", position := position } :: tokens)) :=
  rfl

theorem read_blank
    {c : Char}
    (blank : Text.isBlank c = true)
    (noLineFeed : c ≠ '\n') :
    (atBoundary position tokens).read c = .ok (atBoundary (position.after c) tokens) := by
  simp [atBoundary, read, readFresh, advance, blank, noLineFeed]

theorem read_hash :
    (atBoundary position tokens).read '#' =
      .ok { mode := .comment, position := position.after '#', tokens := tokens } :=
  rfl

theorem read_quote
    {quote : Char}
    (isQuote : quote = '"' ∨ quote = '\'') :
    (atBoundary position tokens).read quote =
      .ok { mode := .string position quote [] false, position := position.after quote,
            tokens := tokens } := by
  rcases isQuote with rfl | rfl
  · rfl
  · rfl

theorem read_digit
    {c : Char}
    (digit : c.isDigit = true) :
    (atBoundary position tokens).read c =
      .ok { mode := .number position [c], position := position.after c, tokens := tokens } := by
  have others : c ≠ '\n' ∧ c ≠ '#' ∧ c ≠ '"' ∧ c ≠ '\'' := by
    refine ⟨?_, ?_, ?_, ?_⟩ <;> (rintro rfl; exact absurd digit (by decide))
  simp [atBoundary, read, readFresh, advance, digit, others, Text.isBlank_eq_false_of_isDigit]

theorem read_letter
    {c : Char}
    (begins : Text.beginsWord c = true) :
    (atBoundary position tokens).read c =
      .ok { mode := .word position [c], position := position.after c, tokens := tokens } := by
  have others : c ≠ '\n' ∧ c ≠ '#' ∧ c ≠ '"' ∧ c ≠ '\'' := by
    refine ⟨?_, ?_, ?_, ?_⟩ <;> (rintro rfl; exact absurd begins (by decide))
  simp [atBoundary, read, readFresh, advance, begins, others,
    Text.isBlank_eq_false_of_beginsWord, Text.isDigit_eq_false_of_beginsWord]

theorem read_operatorChar
    {c : Char}
    (operatorChar : isOperatorChar c = true) :
    (atBoundary position tokens).read c =
      .ok { mode := .operator position [c], position := position.after c, tokens := tokens } := by
  simp only [isOperatorChar, List.contains_iff_mem] at operatorChar
  simp at operatorChar
  rcases operatorChar with
    rfl | rfl | rfl | rfl | rfl | rfl | rfl | rfl | rfl | rfl | rfl | rfl <;> rfl

theorem read_mark (mark : Mark) :
    (atBoundary position tokens).read mark.spelling =
      .ok (atBoundary (position.after mark.spelling)
        ({ kind := .mark mark, lexeme := String.singleton mark.spelling,
           position := position } :: tokens)) := by
  cases mark <;> rfl

end FirstCharacter

/-! ## The slice of a token -/

section Slice

variable {position start : Position} {tokens : List Token} {beyond : List Char}

/-- Characters that go on with a word are added to it. -/
theorem scanRest_word_append
    {text : List Char}
    (continues : ∀ c ∈ text, Text.continuesWord c = true)
    (letters : List Char) :
    scanRest { mode := .word start letters, position := position, tokens := tokens }
        (text ++ beyond) =
      scanRest
        { mode := .word start (text.reverse ++ letters), position := position.afterAll text,
          tokens := tokens }
        beyond := by
  induction text generalizing position letters with
  | nil => rfl
  | cons c rest ih =>
      have step :
          read { mode := .word start letters, position := position, tokens := tokens } c =
            .ok { mode := .word start (c :: letters), position := position.after c,
                  tokens := tokens } := by
        simp [read, advance, continues c]
      rw [List.cons_append, scanRest_cons_of_read step,
        ih (fun c mem => continues c (List.mem_cons_of_mem _ mem))]
      simp

/-- A word ends in front of a character that does not go on with it. -/
theorem scanRest_word_stop
    (stops : ∀ c ∈ beyond.head?, Text.continuesWord c = false)
    (letters : List Char) :
    scanRest { mode := .word start letters, position := position, tokens := tokens } beyond =
      scanRest
        (atBoundary position
          ({ kind := wordKind (String.ofList letters.reverse),
             lexeme := String.ofList letters.reverse, position := start } :: tokens))
        beyond := by
  cases beyond with
  | nil => rfl
  | cons c rest =>
      rw [scanRest_cons, scanRest_cons]
      simp only [read, stops c rfl]
      rfl

/-- Characters that go on with a number are added to it. -/
theorem scanRest_number_append
    {text : List Char}
    (digits : List Char)
    (continues : ∀ before c after, text = before ++ c :: after →
      continuesNumber (before.reverse ++ digits) c = true) :
    scanRest { mode := .number start digits, position := position, tokens := tokens }
        (text ++ beyond) =
      scanRest
        { mode := .number start (text.reverse ++ digits), position := position.afterAll text,
          tokens := tokens }
        beyond := by
  induction text generalizing position digits with
  | nil => rfl
  | cons c rest ih =>
      have step :
          read { mode := .number start digits, position := position, tokens := tokens } c =
            .ok { mode := .number start (c :: digits), position := position.after c,
                  tokens := tokens } := by
        simp [read, advance, show continuesNumber digits c = true from continues [] c rest rfl]
      rw [List.cons_append, scanRest_cons_of_read step, ih]
      · simp
      · intro before d after split
        have known := continues (c :: before) d after (by rw [split, List.cons_append])
        simpa using known

/-- A number ends in front of a character that does not go on with it. -/
theorem scanRest_number_stop
    (digits : List Char)
    (stops : ∀ c ∈ beyond.head?, continuesNumber digits c = false) :
    scanRest { mode := .number start digits, position := position, tokens := tokens } beyond =
      scanRest
        (atBoundary position
          ({ kind := numberKind digits, lexeme := String.ofList digits.reverse,
             position := start } :: tokens))
        beyond := by
  cases beyond with
  | nil => rfl
  | cons c rest =>
      rw [scanRest_cons, scanRest_cons]
      simp only [read, stops c rfl]
      rfl

/-- Operator characters that complete no pair are added to a run. -/
theorem scanRest_operator_append
    {text : List Char}
    (signs : List Char)
    (continues : ∀ c ∈ text, isOperatorChar c = true)
    (noPair : ∀ pair ∈ pairs, ¬ pair <+: signs.reverse ++ text)
    (begun : signs ≠ []) :
    scanRest { mode := .operator start signs, position := position, tokens := tokens }
        (text ++ beyond) =
      scanRest
        { mode := .operator start (text.reverse ++ signs), position := position.afterAll text,
          tokens := tokens }
        beyond := by
  induction text generalizing position signs with
  | nil => rfl
  | cons c rest ih =>
      have incomplete : completesPair signs c = false := by
        unfold completesPair
        split
        · rename_i first
          rw [Bool.eq_false_iff, ne_eq, List.contains_iff_mem]
          intro mem
          exact noPair _ mem ⟨rest, rfl⟩
        · rfl
      have step :
          read { mode := .operator start signs, position := position, tokens := tokens } c =
            .ok { mode := .operator start (c :: signs), position := position.after c,
                  tokens := tokens } := by
        simp [read, advance, continues c, incomplete]
      rw [List.cons_append, scanRest_cons_of_read step, ih]
      · simp
      · exact fun c mem => continues c (List.mem_cons_of_mem _ mem)
      · simpa using noPair
      · exact List.cons_ne_nil _ _

/-- A run of operator characters ends in front of any other character. -/
theorem scanRest_operator_stop
    (stops : ∀ c ∈ beyond.head?, isOperatorChar c = false)
    (signs : List Char) :
    scanRest { mode := .operator start signs, position := position, tokens := tokens } beyond =
      scanRest
        (atBoundary position
          ({ kind := operatorKind (String.ofList signs.reverse),
             lexeme := String.ofList signs.reverse, position := start } :: tokens))
        beyond := by
  cases beyond with
  | nil => rfl
  | cons c rest =>
      rw [scanRest_cons, scanRest_cons]
      simp only [read, stops c rfl]
      rfl

/-- A character of a string that is neither a backslash nor the quote that ends it stands for
itself. -/
theorem read_plain
    {quote c : Char}
    (noBackslash : c ≠ '\\')
    (noQuote : c ≠ quote)
    (done : List Char) :
    read { mode := .string start quote done false, position := position, tokens := tokens } c =
      .ok { mode := .string start quote (c :: done) false, position := position.after c,
            tokens := tokens } := by
  simp [read, advance, noBackslash, noQuote]

/-- A backslash and any character behind it add the character that they stand for. -/
theorem scanRest_escape (quote c : Char) (done text : List Char) :
    scanRest { mode := .string start quote done false, position := position, tokens := tokens }
        ('\\' :: c :: text) =
      scanRest
        { mode := .string start quote (unescape c :: done) false,
          position := (position.after '\\').after c, tokens := tokens }
        text := by
  have backslash :
      read { mode := .string start quote done false, position := position, tokens := tokens }
          '\\' =
        .ok { mode := .string start quote done true, position := position.after '\\',
              tokens := tokens } :=
    rfl
  have escaped :
      read { mode := .string start quote done true, position := position.after '\\',
             tokens := tokens } c =
        .ok { mode := .string start quote (unescape c :: done) false,
              position := (position.after '\\').after c, tokens := tokens } :=
    rfl
  rw [scanRest_cons_of_read backslash, scanRest_cons_of_read escaped]

/-- The body of a string adds the text that it stands for, and the quote behind it ends the
string. -/
theorem scanRest_quoted
    {quote : Char}
    (isQuote : quote = '"' ∨ quote = '\'')
    {body text : List Char}
    (quoted : Quoted quote body text)
    (done : List Char) :
    scanRest { mode := .string start quote done false, position := position, tokens := tokens }
        (body ++ quote :: beyond) =
      scanRest
        (atBoundary (position.afterAll (body ++ [quote]))
          ({ kind := .string, lexeme := String.ofList (done.reverse ++ text),
             position := start } :: tokens))
        beyond := by
  induction quoted generalizing position done with
  | nil =>
      have noBackslash : quote ≠ '\\' := by
        rintro rfl
        exact absurd isQuote (by decide)
      apply scanRest_cons_of_read
      simp [read, advance, emit, atBoundary, noBackslash]
  | escaped c _ ih =>
      rw [List.cons_append, List.cons_append, scanRest_escape, ih]
      simp
  | plain noBackslash noQuote _ ih =>
      rw [List.cons_append, scanRest_cons_of_read (read_plain noBackslash noQuote done), ih]
      simp

/-- Whatever is written in a comment is passed over. -/
theorem scanRest_comment
    {text : List Char}
    (oneLine : '\n' ∉ text)
    (ends : beyond = [] ∨ beyond.head? = some '\n') :
    scanRest { mode := .comment, position := position, tokens := tokens } (text ++ beyond) =
      scanRest (atBoundary (position.afterAll text) tokens) beyond := by
  induction text generalizing position with
  | nil =>
      cases beyond with
      | nil => rfl
      | cons c rest =>
          have lineFeed : c = '\n' := by simpa using ends
          subst lineFeed
          rfl
  | cons c rest ih =>
      rw [List.mem_cons, not_or] at oneLine
      have step :
          read { mode := .comment, position := position, tokens := tokens } c =
            .ok { mode := .comment, position := position.after c, tokens := tokens } := by
        simp [read, advance, Ne.symm oneLine.1]
      rw [List.cons_append, scanRest_cons_of_read step, ih oneLine.2]
      rfl

end Slice

/-! ## Gaps and slices as a whole -/

section Whole

variable {position : Position} {tokens : List Token}

/-- A gap adds no token. -/
theorem scanRest_gap
    {gap beyond : List Char}
    (isGap : Gap gap beyond) :
    scanRest (atBoundary position tokens) (gap ++ beyond) =
      scanRest (atBoundary (position.afterAll gap) tokens) beyond := by
  induction isGap generalizing position with
  | nil => rfl
  | blank blank noLineFeed _ ih =>
      rw [List.cons_append, scanRest_cons_of_read (read_blank position tokens blank noLineFeed), ih]
      rfl
  | comment oneLine ends =>
      rw [List.cons_append, scanRest_cons_of_read (read_hash position tokens),
        scanRest_comment oneLine ends]
      rfl

/-- The front of a numeral is a numeral, unless it is empty. -/
theorem isNumeral_of_append
    {front back : List Char}
    (nonempty : front ≠ [])
    (numeral : isNumeral (front ++ back) = true) :
    isNumeral front = true := by
  obtain ⟨c, rest, rfl⟩ := List.exists_cons_of_ne_nil nonempty
  simp only [isNumeral, List.cons_append, Bool.and_eq_true, List.all_append, List.count_append,
    decide_eq_true_eq] at numeral ⊢
  exact ⟨⟨numeral.1.1, numeral.1.2.1⟩, by omega⟩

/-- What goes on with a numeral makes a longer one. -/
theorem isNumeral_append_singleton
    {digits : List Char}
    (numeral : isNumeral digits = true)
    (c : Char) :
    isNumeral (digits ++ [c]) = continuesNumber digits.reverse c := by
  cases digits with
  | nil => cases numeral
  | cons first rest =>
      simp only [isNumeral, Bool.and_eq_true, decide_eq_true_eq] at numeral
      obtain ⟨⟨digit, allowed⟩, points⟩ := numeral
      have notPoint : first ≠ '.' := by
        rintro rfl
        exact absurd digit (by decide)
      have pointed : rest.count '.' = 0 ↔ '.' ∉ rest := List.count_eq_zero
      by_cases point : c = '.'
      · subst point
        by_cases mem : '.' ∈ rest
        · have some : 1 ≤ rest.count '.' := List.one_le_count_iff.2 mem
          simp [isNumeral, continuesNumber, digit, allowed, mem, List.count_append,
            show '.'.isDigit = false from rfl]
          omega
        · simp [isNumeral, continuesNumber, digit, allowed, mem, List.count_append, notPoint.symm,
            pointed.2 mem]
      · have unequal : (c == '.') = false := beq_false_of_ne point
        have absent : [c].count '.' = 0 := List.count_eq_zero.2 (by simpa using Ne.symm point)
        simp [isNumeral, continuesNumber, digit, allowed, points, List.count_append, unequal,
          absent]

/-- A scanner takes the slice of a token and adds the token. -/
theorem scanRest_slice
    {kind : Kind}
    {lexeme : String}
    {slice beyond : List Char}
    (spelled : Spelled kind lexeme slice beyond) :
    scanRest (atBoundary position tokens) (slice ++ beyond) =
      scanRest
        (atBoundary (position.afterAll slice)
          ({ kind := kind, lexeme := lexeme, position := position } :: tokens))
        beyond := by
  cases spelled with
  | newline => exact scanRest_cons_of_read (read_lineFeed position tokens) beyond
  | mark mark => exact scanRest_cons_of_read (read_mark position tokens mark) beyond
  | word isWord stops =>
      have nonempty : slice ≠ [] := by
        rintro rfl
        cases isWord
      obtain ⟨c, rest, rfl⟩ := List.exists_cons_of_ne_nil nonempty
      simp only [Text.isWord, Bool.and_eq_true, List.all_eq_true] at isWord
      have ends : ∀ d ∈ beyond.head?, Text.continuesWord d = false := by
        intro d mem
        have stop := stops d mem
        simpa [Text.isWord, isWord.1, List.all_eq_true.2 isWord.2] using stop
      rw [List.cons_append, scanRest_cons_of_read (read_letter position tokens isWord.1),
        scanRest_word_append isWord.2, scanRest_word_stop ends]
      simp
  | number numeral stops =>
      have nonempty : slice ≠ [] := by
        rintro rfl
        cases numeral
      obtain ⟨c, rest, rfl⟩ := List.exists_cons_of_ne_nil nonempty
      have digit : c.isDigit = true := by
        simp only [isNumeral, Bool.and_eq_true] at numeral
        exact numeral.1.1
      have continues : ∀ before d after, rest = before ++ d :: after →
          continuesNumber (before.reverse ++ [c]) d = true := by
        rintro before d after rfl
        have whole : isNumeral ((c :: before) ++ [d] ++ after) = true := by simpa using numeral
        have front : isNumeral ((c :: before) ++ [d]) = true := isNumeral_of_append (by simp) whole
        have shorter : isNumeral (c :: before) = true := isNumeral_of_append (by simp) front
        rw [isNumeral_append_singleton shorter] at front
        simpa using front
      have ends : ∀ d ∈ beyond.head?, continuesNumber (rest.reverse ++ [c]) d = false := by
        intro d mem
        have stop := stops d mem
        rw [isNumeral_append_singleton numeral] at stop
        simpa using stop
      rw [List.cons_append, scanRest_cons_of_read (read_digit position tokens digit),
        scanRest_number_append [c] continues, scanRest_number_stop _ ends]
      simp [numberKind, or_comm]
  | pair pair mem =>
      simp only [pairs, List.mem_cons, List.not_mem_nil, or_false] at mem
      rcases mem with
        rfl | rfl | rfl | rfl | rfl | rfl | rfl | rfl | rfl | rfl | rfl | rfl | rfl <;> rfl
  | run nonempty operatorChars noPair stops =>
      obtain ⟨c, rest, rfl⟩ := List.exists_cons_of_ne_nil nonempty
      rw [List.cons_append,
        scanRest_cons_of_read (read_operatorChar position tokens (operatorChars c (by simp))),
        scanRest_operator_append [c] (fun d mem => operatorChars d (by simp [mem])) noPair
          (by simp),
        scanRest_operator_stop stops]
      simp
  | @string quote _ _ _ isQuote quoted =>
      rw [List.cons_append, scanRest_cons_of_read (read_quote position tokens isQuote),
        List.append_assoc]
      exact scanRest_quoted isQuote quoted []

/-- A text that is cut into slices and gaps has the tokens of the slices. -/
theorem scanRest_of_tiling
    {text : List Char}
    {found : List Token}
    (tiling : Tiling position text found) :
    scanRest (atBoundary position tokens) text = .ok (tokens.reverse ++ found) := by
  induction tiling generalizing tokens with
  | @finish start gap isGap =>
      have passed :
          scanRest (atBoundary start tokens) (gap ++ []) =
            scanRest (atBoundary (start.afterAll gap) tokens) [] :=
        scanRest_gap isGap
      rw [List.append_nil] at passed
      rw [passed, scanRest_nil]
      simp [finish, atBoundary, complete, emit]
  | token isGap spelled _ ih =>
      rw [scanRest_gap isGap, scanRest_slice spelled, ← Position.afterAll_append, ih]
      simp

end Whole

end Scanner
end TinyScript
