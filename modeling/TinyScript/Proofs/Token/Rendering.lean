import TinyScript.Proofs.Grammar.Writing

/-!
# Rendering tokens

Tokens without their places are rendered with a blank between each two, and the
text is scanned back to them (`scan_render_and_image`).  The tokens that a source
has are none but those which can be rendered so.
-/

namespace TinyScript
namespace Token

open Scanner

/-- The kinds and lexemes that the tokens before the end of a source can have. -/
inductive Entry : (kind : Kind) → (lexeme : String) → Prop
  | identifier {word : String} :
      Text.isWord word.toList = true →
      (∀ keyword : Keyword, keyword.spelling ≠ word) →
      Entry .identifier word
  | keyword (word : Keyword) : Entry (.keyword word) word.spelling
  | int {digits : List Char} :
      digits ≠ [] → (∀ c ∈ digits, c.isDigit = true) → Entry .int (String.ofList digits)
  /-- There may be no digits behind the point. -/
  | float {whole fraction : List Char} :
      whole ≠ [] →
      (∀ c ∈ whole, c.isDigit = true) →
      (∀ c ∈ fraction, c.isDigit = true) →
      Entry .float (String.ofList (whole ++ '.' :: fraction))
  | string (text : String) : Entry .string text
  | mark (mark : Mark) : Entry (.mark mark) (String.singleton mark.spelling)
  | newline : Entry .newline "\n"
  | pair {pair : List Char} :
      pair ∈ pairs → Entry (operatorKind (String.ofList pair)) (String.ofList pair)
  | run {run : List Char} :
      run ≠ [] →
      (∀ c ∈ run, isOperatorChar c = true) →
      (∀ pair ∈ pairs, ¬ pair <+: run) →
      Entry (operatorKind (String.ofList run)) (String.ofList run)

/-- Kinds and lexemes that end in the only one for the end of a source. -/
def WellFormed (entries : List (Kind × String)) : Prop :=
  ∃ earlier, entries = earlier ++ [(.eof, "")] ∧ ∀ entry ∈ earlier, Entry entry.1 entry.2

/-- The kind and the lexeme of a token. -/
def content (token : Token) : Kind × String :=
  (token.kind, token.lexeme)

/-- The token of a kind and a lexeme, without a place. -/
def ofContent (entry : Kind × String) : Token :=
  { kind := entry.1, lexeme := entry.2, position := .start }

/-- Kinds and lexemes as text, with a blank between each two. -/
def render (entries : List (Kind × String)) : String :=
  String.ofList ([' '].intercalate (entries.map fun entry => (ofContent entry).slice))

/-! ## What stands in a source can be rendered -/

theorem wordKind_eq_identifier
    {word : String}
    (noKeyword : ∀ keyword : Keyword, keyword.spelling ≠ word) :
    wordKind word = .identifier := by
  have missing : Keyword.ofSpelling? word = none := by
    rw [Keyword.ofSpelling?, List.find?_eq_none]
    exact fun keyword _ => by simpa using noKeyword keyword
  simp [wordKind, missing]

theorem wordKind_spelling
    (word : Keyword) :
    wordKind word.spelling = .keyword word := by
  cases word <;> rfl

/-- Digits with at most one point among or behind them are a numeral. -/
theorem isNumeral_of_digits
    {whole fraction : List Char}
    (nonempty : whole ≠ [])
    (digits : ∀ c ∈ whole, c.isDigit = true)
    (fractionDigits : ∀ c ∈ fraction, c.isDigit = true)
    {point : List Char}
    (points : point = [] ∨ point = ['.']) :
    isNumeral (whole ++ (point ++ fraction)) = true := by
  have noPoint : ∀ {text : List Char}, (∀ c ∈ text, c.isDigit = true) → text.count '.' = 0 := by
    intro text each
    exact List.count_eq_zero.2 fun mem => absurd (each _ mem) (by decide)
  obtain ⟨c, rest, rfl⟩ := List.exists_cons_of_ne_nil nonempty
  rw [List.forall_mem_cons] at digits
  simp only [List.cons_append, isNumeral, digits.1, Bool.true_and, Bool.and_eq_true,
    List.all_eq_true, List.mem_append, Bool.or_eq_true, decide_eq_true_eq, List.count_append,
    noPoint digits.2, noPoint fractionDigits]
  rcases points with rfl | rfl
  · refine ⟨?_, by simp⟩
    rintro d (mem | mem | mem)
    · exact .inl (digits.2 d mem)
    · cases mem
    · exact .inl (fractionDigits d mem)
  · refine ⟨?_, by simp⟩
    rintro d (mem | mem | mem)
    · exact .inl (digits.2 d mem)
    · exact .inr (by simpa using mem)
    · exact .inl (fractionDigits d mem)

theorem Entry.writable
    {kind : Kind}
    {lexeme : String}
    (entry : Entry kind lexeme) :
    (ofContent (kind, lexeme)).Writable := by
  cases entry with
  | identifier isWord noKeyword =>
    have writable := writable_ofWord isWord
    rwa [ofWord, wordKind_eq_identifier noKeyword] at writable
  | keyword word =>
    have writable := writable_keyword word
    rwa [ofWord, wordKind_spelling] at writable
  | @int digits nonempty allDigits =>
    have numeral : isNumeral digits = true := by
      have whole : isNumeral (digits ++ ([] ++ [])) = true :=
        isNumeral_of_digits nonempty allDigits (by simp) (.inl rfl)
      simpa using whole
    have noPoint : digits.contains '.' = false := by
      rw [Bool.eq_false_iff, ne_eq, List.contains_iff_mem]
      exact fun mem => absurd (allDigits _ mem) (by decide)
    have writable := writable_ofNumeral numeral
    rwa [ofNumeral, numberKind, noPoint] at writable
  | @float whole fraction nonempty allDigits fractionDigits =>
    have numeral := isNumeral_of_digits nonempty allDigits fractionDigits (.inr rfl)
    have point : (whole ++ '.' :: fraction).contains '.' = true := by simp
    have writable := writable_ofNumeral numeral
    rwa [ofNumeral, numberKind, List.singleton_append, point] at writable
  | string => exact writable_ofString _
  | mark => exact writable_ofMark _
  | newline => exact ⟨rfl, fun beyond => .newline _⟩
  | @pair pair mem =>
    have operator : isOperator pair = true := by simp [isOperator, mem]
    exact writable_ofOperator (by rwa [String.toList_ofList])
  | @run run nonempty signs noPair =>
    have operator : isOperator run = true := by
      simp only [isOperator, Bool.or_eq_true, Bool.and_eq_true, Bool.not_eq_true',
        List.contains_iff_mem, List.isEmpty_eq_false_iff, List.all_eq_true, List.any_eq_false,
        List.isPrefixOf_iff_prefix]
      exact .inr ⟨⟨nonempty, signs⟩, noPair⟩
    exact writable_ofOperator (by rwa [String.toList_ofList])

/-- Rendered entries are written tokens: what the end of the source is rendered as is empty. -/
theorem render_append_eof
    (entries : List (Kind × String)) :
    render (entries ++ [(.eof, "")]) = String.ofList (written (entries.map ofContent)) := by
  have ends : (ofContent (.eof, "")).slice = [] := rfl
  rw [render, List.map_append, List.map_singleton, ends]
  congr 1
  induction entries with
  | nil => rfl
  | cons entry entries ih =>
    rw [List.map_cons, List.cons_append, List.intercalate_cons_of_ne_nil (by simp), ih]
    simp [written]

/-! ## What stands in a source has an entry -/

theorem entry_wordKind
    {word : List Char}
    (isWord : Text.isWord word = true) :
    Entry (wordKind (String.ofList word)) (String.ofList word) := by
  unfold wordKind
  split
  · rename_i keyword found
    have spelling : keyword.spelling = String.ofList word := by
      simpa using List.find?_some found
    rw [← spelling]
    exact .keyword keyword
  · rename_i missing
    rw [Keyword.ofSpelling?, List.find?_eq_none] at missing
    refine .identifier (by rwa [String.toList_ofList]) fun keyword => ?_
    simpa using missing keyword (by cases keyword <;> decide)

theorem entry_numberKind
    {digits : List Char}
    (numeral : isNumeral digits = true) :
    Entry (numberKind digits) (String.ofList digits) := by
  cases digits with
  | nil => cases numeral
  | cons first rest =>
    simp only [isNumeral, Bool.and_eq_true, List.all_eq_true, Bool.or_eq_true, beq_iff_eq,
      decide_eq_true_eq] at numeral
    obtain ⟨⟨digit, allowed⟩, points⟩ := numeral
    have notPoint : first ≠ '.' := by
      rintro rfl
      exact absurd digit (by decide)
    by_cases point : '.' ∈ rest
    · obtain ⟨whole, fraction, rfl, before⟩ := List.eq_append_cons_of_mem point
      have behind : '.' ∉ fraction := by
        rw [List.count_append, List.count_cons_self] at points
        exact List.count_eq_zero.1 (by omega)
      have isFloat : numberKind (first :: (whole ++ '.' :: fraction)) = .float := by
        simp [numberKind]
      rw [isFloat]
      refine @Entry.float (first :: whole) fraction (by simp) ?_ ?_
      · exact List.forall_mem_cons.2 ⟨digit, fun c mem =>
          (allowed c (by simp [mem])).resolve_right fun same => before (same ▸ mem)⟩
      · exact fun c mem =>
          (allowed c (by simp [mem])).resolve_right fun same => behind (same ▸ mem)
    · have isInt : numberKind (first :: rest) = .int := by
        simp [numberKind, point, notPoint.symm]
      rw [isInt]
      refine .int (by simp) (List.forall_mem_cons.2 ⟨digit, fun c mem => ?_⟩)
      exact (allowed c mem).resolve_right fun same => point (same ▸ mem)

theorem Spelled.entry
    {kind : Kind}
    {lexeme : String}
    {slice beyond : List Char}
    (spelled : Spelled kind lexeme slice beyond) :
    Entry kind lexeme := by
  cases spelled with
  | newline => exact .newline
  | mark mark => exact .mark mark
  | word isWord => exact entry_wordKind isWord
  | number numeral => exact entry_numberKind numeral
  | pair _ mem => exact .pair mem
  | run nonempty signs noPair => exact .run nonempty signs noPair
  | string => exact .string _

theorem wellFormed_of_scan
    {source : String}
    {tokens : List Token}
    (scanned : scan source = .ok tokens) :
    WellFormed (tokens.map content) := by
  have tiling := (scan_eq_ok_iff_tiling source tokens).1 scanned
  obtain ⟨earlier, rfl, noEnd⟩ := tiling.exists_eof
  refine ⟨earlier.map content, by rw [List.map_append]; rfl, List.forall_mem_map.2 ?_⟩
  intro token mem
  obtain ⟨_, _, _, _, _, spelled⟩ :=
    tiling.exists_slice token (List.mem_append_left _ mem) (noEnd token mem)
  exact spelled.entry

/-- Whatever is well-formed is rendered as a source of exactly these kinds and lexemes. -/
theorem exists_scan_render
    {entries : List (Kind × String)}
    (wellFormed : WellFormed entries) :
    ∃ tokens, scan (render entries) = .ok tokens ∧ tokens.map content = entries := by
  obtain ⟨earlier, rfl, each⟩ := wellFormed
  have writable : AllWritable (earlier.map ofContent) :=
    List.forall_mem_map.2 fun entry mem => (each entry mem).writable
  obtain ⟨found, ending, tiling, same, _⟩ := exists_tiling_written writable .start
  refine ⟨found ++ [{ kind := .eof, lexeme := "", position := ending }], ?_, ?_⟩
  · rw [render_append_eof, scan_eq_ok_iff_tiling, String.toList_ofList]
    exact tiling
  · have contents : (found.map Token.erase).map content = (earlier.map ofContent).map content := by
      rw [same]
    rw [List.map_map, List.map_map] at contents
    rw [List.map_append]
    exact congrArg (· ++ [(Kind.eof, "")]) (contents.trans (List.map_id _))

/-- Scanning undoes rendering, and has no other results: every well-formed list of kinds and lexemes
is rendered as a source whose tokens have exactly these, and the tokens of every source that is
accepted have kinds and lexemes that are well-formed. -/
theorem scan_render_and_image :
    (∀ entries, WellFormed entries →
      ∃ tokens, scan (render entries) = .ok tokens ∧ tokens.map content = entries) ∧
    ∀ source tokens, scan source = .ok tokens → WellFormed (tokens.map content) :=
  ⟨fun _ => exists_scan_render, fun _ _ => wellFormed_of_scan⟩

/-- A name beyond ASCII, a float that ends in its point, a text with a quote, a backslash, braces
and a line feed, a line end, and an operator without a meaning. -/
theorem scan_render_and_image_of_mixed :
    ∃ entries : List (Kind × String),
      entries =
        [(.identifier, "é_1"), (.keyword .fnWord, "fn"), (.float, "07."),
          (.string, "a\"\\\x7b\n"), (.newline, "\n"), (.operator, "-+="), (.sign .both, "&&"),
          (.eof, "")] ∧
        WellFormed entries ∧
          ∃ tokens, scan (render entries) = .ok tokens ∧ tokens.map content = entries := by
  obtain ⟨entries, entriesEq⟩ : ∃ entries : List (Kind × String), entries = _ := ⟨_, rfl⟩
  refine ⟨entries, entriesEq, ?_⟩
  have wellFormed : WellFormed entries := by
    have isWord : Text.isWord "é_1".toList = true := by decide +kernel
    have noKeyword : ∀ keyword : Keyword, keyword.spelling ≠ "é_1" := by
      intro keyword
      cases keyword <;> decide
    refine ⟨entries.dropLast, by rw [entriesEq]; rfl, ?_⟩
    rw [entriesEq]
    refine List.forall_mem_cons.2 ⟨.identifier isWord noKeyword, ?_⟩
    refine List.forall_mem_cons.2 ⟨.keyword .fnWord, List.forall_mem_cons.2 ⟨?_, ?_⟩⟩
    · exact @Entry.float ['0', '7'] [] (by simp) (by simp [Char.isDigit]) (by simp)
    refine List.forall_mem_cons.2 ⟨.string _, List.forall_mem_cons.2 ⟨.newline, ?_⟩⟩
    refine List.forall_mem_cons.2 ⟨?_, List.forall_mem_cons.2 ⟨?_, by simp⟩⟩
    · exact @Entry.run ['-', '+', '='] (by simp) (by simp [isOperatorChar]) (by decide)
    · exact @Entry.pair ['&', '&'] (by decide)
  exact ⟨wellFormed, scan_render_and_image.1 entries wellFormed⟩

end Token
end TinyScript
