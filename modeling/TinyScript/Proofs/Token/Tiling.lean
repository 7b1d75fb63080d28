import TinyScript.Proofs.Token.Scanning

/-!
# Tokens tile their source

A source that is accepted is cut into gaps and the slices of its tokens, and a
source that can be cut so is accepted with these tokens (`scan_eq_ok_iff_tiling`).
-/

namespace TinyScript
namespace Position

theorem offset_le_afterAll (position : Position) (text : List Char) :
    position.offset ≤ (position.afterAll text).offset := by
  rw [offset_afterAll]
  omega

theorem offset_lt_afterAll
    (position : Position)
    {text : List Char}
    (nonempty : text ≠ []) :
    position.offset < (position.afterAll text).offset := by
  obtain ⟨c, rest, rfl⟩ := List.exists_cons_of_ne_nil nonempty
  have more := offset_le_afterAll (position.after c) rest
  have size := Char.utf8Size_pos c
  rw [offset_after] at more
  rw [afterAll_cons]
  omega

end Position

namespace Token

open Scanner

/-! ## Finding the slice of a token -/

/-- A word is taken as long as it goes on. -/
theorem exists_word
    {c : Char}
    (begins : Text.beginsWord c = true)
    (rest : List Char) :
    ∃ kind lexeme slice beyond,
      c :: rest = slice ++ beyond ∧ slice ≠ [] ∧ Spelled kind lexeme slice beyond := by
  have isWord : Text.isWord (c :: rest.takeWhile Text.continuesWord) = true := by
    simp [Text.isWord, begins]
  refine ⟨_, _, c :: rest.takeWhile Text.continuesWord, rest.dropWhile Text.continuesWord,
    by simp, by simp, .word isWord ?_⟩
  intro d mem
  have stops := List.head?_dropWhile_not Text.continuesWord rest
  rw [Option.mem_def.1 mem] at stops
  simp only at stops
  simp [Text.isWord, begins, stops]

/-- A numeral is taken as long as it goes on. -/
theorem exists_longest_numeral
    {digits : List Char}
    (numeral : isNumeral digits = true)
    (rest : List Char) :
    ∃ slice beyond, digits ++ rest = slice ++ beyond ∧ isNumeral slice = true ∧
      ∀ c ∈ beyond.head?, isNumeral (slice ++ [c]) = false := by
  induction rest generalizing digits with
  | nil => exact ⟨digits, [], rfl, numeral, by simp⟩
  | cons c rest ih =>
      cases longer : isNumeral (digits ++ [c]) with
      | false => exact ⟨digits, c :: rest, rfl, numeral, by simpa using longer⟩
      | true =>
          obtain ⟨slice, beyond, split, found⟩ := ih longer
          exact ⟨slice, beyond, by simpa using split, found⟩

theorem exists_number
    {c : Char}
    (digit : c.isDigit = true)
    (rest : List Char) :
    ∃ kind lexeme slice beyond,
      c :: rest = slice ++ beyond ∧ slice ≠ [] ∧ Spelled kind lexeme slice beyond := by
  have numeral : isNumeral [c] = true := by simp [isNumeral, digit]
  obtain ⟨slice, beyond, split, longest, stops⟩ := exists_longest_numeral numeral rest
  refine ⟨_, _, slice, beyond, split, ?_, .number longest stops⟩
  rintro rfl
  cases longest

/-- The operators that are taken off a run have two operator characters. -/
theorem mem_pairs {pair : List Char} (mem : pair ∈ pairs) :
    ∃ first second, pair = [first, second] := by
  simp only [pairs, List.mem_cons, List.not_mem_nil, or_false] at mem
  rcases mem with rfl | rfl | rfl | rfl | rfl | rfl | rfl | rfl | rfl | rfl | rfl | rfl | rfl <;>
    exact ⟨_, _, rfl⟩

/-- Off a run of operator characters a pair is taken, or the whole of it. -/
theorem exists_operator
    {c : Char}
    (operatorChar : isOperatorChar c = true)
    (rest : List Char) :
    ∃ kind lexeme slice beyond,
      c :: rest = slice ++ beyond ∧ slice ≠ [] ∧ Spelled kind lexeme slice beyond := by
  by_cases begins : ∃ pair ∈ pairs, pair <+: c :: rest.takeWhile isOperatorChar
  · obtain ⟨pair, mem, beyond, split⟩ := begins
    obtain ⟨first, second, rfl⟩ := mem_pairs mem
    refine ⟨_, _, [first, second], beyond ++ rest.dropWhile isOperatorChar, ?_, by simp,
      .pair _ mem⟩
    rw [← List.append_assoc, split]
    simp
  · refine ⟨_, _, c :: rest.takeWhile isOperatorChar, rest.dropWhile isOperatorChar, by simp,
      by simp, .run (by simp) ?_ ?_ ?_⟩
    · intro d mem
      rcases List.mem_cons.1 mem with rfl | mem
      · exact operatorChar
      · exact List.all_eq_true.1 List.all_takeWhile d mem
    · intro pair mem front
      exact begins ⟨pair, mem, front⟩
    · intro d mem
      have stops := List.head?_dropWhile_not isOperatorChar rest
      rw [Option.mem_def.1 mem] at stops
      simpa using stops

/-- A string is closed by some quote, or it is a fault. -/
theorem exists_quoted_or_error (quote : Char) :
    (rest : List Char) →
    (∃ body text beyond, rest = body ++ quote :: beyond ∧ Quoted quote body text) ∨
      ∀ start done position tokens,
        scanRest { mode := .string start quote done false, position := position,
                   tokens := tokens } rest =
          .error
            { stage := .lexer, message := "unterminated string", position := some start }
  | [] => .inr fun _ _ _ _ => rfl
  | c :: rest => by
      by_cases closes : c = quote
      · exact .inl ⟨[], [], rest, by simp [closes], .nil⟩
      by_cases backslash : c = '\\'
      · subst backslash
        cases rest with
        | nil => exact .inr fun _ _ _ _ => rfl
        | cons d rest =>
            rcases exists_quoted_or_error quote rest with ⟨body, text, beyond, rfl, quoted⟩ | fault
            · exact .inl ⟨'\\' :: d :: body, unescape d :: text, beyond, rfl, .escaped d quoted⟩
            · exact .inr fun _ _ _ _ => by rw [scanRest_escape, fault]
      · rcases exists_quoted_or_error quote rest with ⟨body, text, beyond, rfl, quoted⟩ | fault
        · exact .inl ⟨c :: body, c :: text, beyond, rfl, .plain backslash closes quoted⟩
        · exact .inr fun _ _ _ _ => by
            rw [scanRest_cons_of_read (read_plain backslash closes _), fault]

/-- In front of a character there is white space, a comment, the slice of a token, or a fault. -/
theorem exists_slice_or_error (c : Char) (rest : List Char) :
    (Text.isBlank c = true ∧ c ≠ '\n') ∨ c = '#' ∨
      (∃ kind lexeme slice beyond,
        c :: rest = slice ++ beyond ∧ slice ≠ [] ∧ Spelled kind lexeme slice beyond) ∨
      ∀ position tokens, ∃ diagnostic,
        scanRest (atBoundary position tokens) (c :: rest) = .error diagnostic := by
  by_cases lineFeed : c = '\n'
  · subst lineFeed
    exact .inr (.inr (.inl ⟨_, _, ['\n'], rest, rfl, by simp, .newline rest⟩))
  by_cases blank : Text.isBlank c = true
  · exact .inl ⟨blank, lineFeed⟩
  by_cases hash : c = '#'
  · exact .inr (.inl hash)
  by_cases isQuote : c = '"' ∨ c = '\''
  · refine .inr (.inr ?_)
    rcases exists_quoted_or_error c rest with ⟨body, text, beyond, rfl, quoted⟩ | fault
    · exact .inl ⟨_, _, c :: (body ++ [c]), beyond, by simp, by simp,
        .string beyond isQuote quoted⟩
    · exact .inr fun position tokens =>
        ⟨_, (scanRest_cons_of_read (read_quote position tokens isQuote) rest).trans
          (fault position [] _ tokens)⟩
  by_cases digit : c.isDigit = true
  · exact .inr (.inr (.inl (exists_number digit rest)))
  by_cases begins : Text.beginsWord c = true
  · exact .inr (.inr (.inl (exists_word begins rest)))
  by_cases operatorChar : isOperatorChar c = true
  · exact .inr (.inr (.inl (exists_operator operatorChar rest)))
  refine .inr (.inr ?_)
  cases found : Mark.ofSpelling? c with
  | some mark =>
      have spelling : mark.spelling = c := by
        simpa using List.find?_some found
      subst spelling
      exact .inl ⟨_, _, [mark.spelling], rest, rfl, by simp, .mark mark rest⟩
  | none =>
      refine .inr fun position tokens =>
        ⟨{ stage := .lexer
           message := "unexpected character `" ++ String.singleton c ++ "`"
           position := some position }, ?_⟩
      rw [scanRest_cons]
      simp [atBoundary, Scanner.read, readFresh, lineFeed, blank, hash, isQuote, digit, begins,
        operatorChar, found]
      rfl

/-! ## Putting slices together -/

/-- White space in front of a tiled text belongs to its first gap. -/
theorem Tiling.blank
    {position : Position}
    {c : Char}
    {text : List Char}
    {tokens : List Token}
    (blank : Text.isBlank c = true)
    (noLineFeed : c ≠ '\n')
    (tiling : Tiling (position.after c) text tokens) :
    Tiling position (c :: text) tokens := by
  cases tiling with
  | finish isGap => exact .finish (.blank blank noLineFeed isGap)
  | token isGap spelled rest => exact .token (.blank blank noLineFeed isGap) spelled rest

/-- No gap stands at the end of a line. -/
theorem Gap.eq_nil
    {gap beyond : List Char}
    (isGap : Gap gap beyond)
    (ends : gap ++ beyond = [] ∨ (gap ++ beyond).head? = some '\n') :
    gap = [] := by
  cases isGap with
  | nil => rfl
  | blank _ noLineFeed => simp [noLineFeed] at ends
  | comment => simp at ends

/-- A comment in front of a tiled text that ends a line is a gap of its own. -/
theorem Tiling.comment
    {position : Position}
    {text beyond : List Char}
    {tokens : List Token}
    (oneLine : '\n' ∉ text)
    (ends : beyond = [] ∨ beyond.head? = some '\n')
    (tiling : Tiling (position.afterAll ('#' :: text)) beyond tokens) :
    Tiling position ('#' :: (text ++ beyond)) tokens := by
  cases tiling with
  | finish isGap =>
      obtain rfl := isGap.eq_nil (by simpa using ends)
      rw [List.append_nil]
      exact .finish (.comment oneLine (.inl rfl))
  | @token _ kind lexeme _ slice more tokens isGap spelled rest =>
      obtain rfl := isGap.eq_nil ends
      rw [List.nil_append, ← Position.afterAll_append] at rest
      have tiled :
          Tiling position (('#' :: text) ++ (slice ++ more))
            ({ kind := kind, lexeme := lexeme,
               position := position.afterAll ('#' :: text) } :: tokens) :=
        .token (.comment oneLine ends) spelled rest
      exact tiled

/-- A text that is scanned from between two tokens on is tiled by the tokens that it adds. -/
theorem exists_tiling_of_scanRest
    (text : List Char)
    {position : Position}
    {tokens all : List Token}
    (scanned : scanRest (atBoundary position tokens) text = .ok all) :
    ∃ found, all = tokens.reverse ++ found ∧ Tiling position text found := by
  match text with
  | [] =>
      refine ⟨_, ?_, .finish (.nil [])⟩
      simpa [finish, atBoundary, complete, emit, eq_comm] using scanned
  | c :: rest =>
      rcases exists_slice_or_error c rest with
        ⟨blank, noLineFeed⟩ | rfl | ⟨kind, lexeme, slice, beyond, split, nonempty, spelled⟩ | fault
      · rw [scanRest_cons_of_read (read_blank position tokens blank noLineFeed)] at scanned
        obtain ⟨found, rfl, tiling⟩ := exists_tiling_of_scanRest rest scanned
        exact ⟨found, rfl, tiling.blank blank noLineFeed⟩
      · have ends :
            rest.dropWhile (· != '\n') = [] ∨
              (rest.dropWhile (· != '\n')).head? = some '\n' := by
          cases beyond : rest.dropWhile (· != '\n') with
          | nil => exact .inl rfl
          | cons d more =>
              have stops := List.head?_dropWhile_not (· != '\n') rest
              simpa [beyond] using stops
        have oneLine : '\n' ∉ rest.takeWhile (· != '\n') := by
          intro mem
          simpa using List.all_eq_true.1 List.all_takeWhile _ mem
        have split : rest = rest.takeWhile (· != '\n') ++ rest.dropWhile (· != '\n') :=
          List.takeWhile_append_dropWhile.symm
        rw [split, ← List.cons_append, scanRest_gap (.comment oneLine ends)] at scanned
        obtain ⟨found, rfl, tiling⟩ := exists_tiling_of_scanRest _ scanned
        rw [split]
        exact ⟨found, rfl, tiling.comment oneLine ends⟩
      · rw [split, scanRest_slice spelled] at scanned
        obtain ⟨found, rfl, tiling⟩ := exists_tiling_of_scanRest beyond scanned
        rw [split]
        refine ⟨{ kind := kind, lexeme := lexeme, position := position } :: found, by simp, ?_⟩
        exact .token (.nil _) spelled tiling
      · obtain ⟨diagnostic, fault⟩ := fault position tokens
        rw [fault] at scanned
        cases scanned
  termination_by text.length
  decreasing_by
  · simp
  · have shorter := (List.dropWhile_sublist (l := rest) (· != '\n')).length_le
    simp
    omega
  · have longer : 0 < slice.length := List.length_pos_iff.2 nonempty
    rw [split, List.length_append]
    omega

/-- A source is scanned into exactly the tokens that tile it. -/
theorem scan_eq_ok_iff_tiling
    (source : String)
    (tokens : List Token) :
    scan source = .ok tokens ↔ Tiling .start source.toList tokens := by
  constructor
  · intro scanned
    have fromStart : scanRest (atBoundary .start []) source.toList = .ok tokens := scanned
    obtain ⟨found, rfl, tiling⟩ := exists_tiling_of_scanRest source.toList fromStart
    exact tiling
  · exact scanRest_of_tiling

/-! ## What a tiling says of each token -/

theorem Spelled.slice_ne_nil
    {kind : Kind}
    {lexeme : String}
    {slice beyond : List Char}
    (spelled : Spelled kind lexeme slice beyond) :
    slice ≠ [] := by
  cases spelled with
  | word isWord => rintro rfl; cases isWord
  | number numeral => rintro rfl; cases numeral
  | pair _ mem =>
      obtain ⟨first, second, rfl⟩ := mem_pairs mem
      simp
  | run nonempty => exact nonempty
  | _ => simp

/-- The end of a source is not written. -/
theorem Spelled.kind_ne_eof
    {kind : Kind}
    {lexeme : String}
    {slice beyond : List Char}
    (spelled : Spelled kind lexeme slice beyond) :
    kind ≠ .eof := by
  cases spelled with
  | word => unfold wordKind; split <;> simp
  | number => unfold numberKind; split <;> simp
  | pair => unfold operatorKind; split <;> simp
  | run => unfold operatorKind; split <;> simp
  | _ => simp

/-- Only strings are written otherwise than their lexemes. -/
theorem Spelled.slice_eq_lexeme
    {kind : Kind}
    {lexeme : String}
    {slice beyond : List Char}
    (spelled : Spelled kind lexeme slice beyond)
    (notString : kind ≠ .string) :
    slice = lexeme.toList := by
  cases spelled with
  | string => exact absurd rfl notString
  | mark mark => cases mark <;> rfl
  | _ => simp

namespace Tiling

variable {position : Position} {text : List Char} {tokens : List Token}

/-- The token for the end comes last, stands at the end of the text and is the only one. -/
theorem exists_eof (tiling : Tiling position text tokens) :
    ∃ earlier,
      tokens = earlier ++
        [{ kind := .eof, lexeme := "", position := position.afterAll text }] ∧
      ∀ token ∈ earlier, token.kind ≠ .eof := by
  induction tiling with
  | finish => exact ⟨[], rfl, by simp⟩
  | @token position kind lexeme gap _ _ _ _ spelled _ ih =>
      obtain ⟨earlier, rfl, others⟩ := ih
      refine ⟨{ kind := kind, lexeme := lexeme, position := position.afterAll gap } :: earlier,
        ?_, ?_⟩
      · simp only [Position.afterAll_append, List.cons_append]
      · rw [List.forall_mem_cons]
        exact ⟨spelled.kind_ne_eof, others⟩

/-- No token begins before the text does. -/
theorem offset_le (tiling : Tiling position text tokens) :
    ∀ token ∈ tokens, position.offset ≤ token.position.offset := by
  induction tiling with
  | finish =>
      rw [List.forall_mem_singleton]
      exact Position.offset_le_afterAll _ _
  | token _ _ _ ih =>
      rw [List.forall_mem_cons]
      refine ⟨Position.offset_le_afterAll _ _, fun token mem => ?_⟩
      exact Nat.le_trans (Position.offset_le_afterAll _ _) (ih token mem)

/-- Each token begins behind the slice of the one before it. -/
theorem pairwise_offset (tiling : Tiling position text tokens) :
    tokens.Pairwise fun earlier later => earlier.position.offset < later.position.offset := by
  induction tiling with
  | finish => exact List.pairwise_singleton _ _
  | token _ spelled rest ih =>
      refine List.pairwise_cons.2 ⟨fun later mem => ?_, ih⟩
      have behind := rest.offset_le later mem
      rw [Position.afterAll_append] at behind
      exact Nat.lt_of_lt_of_le (Position.offset_lt_afterAll _ spelled.slice_ne_nil) behind

/-- Each token but the last has a slice of the text, at the place that its position names. -/
theorem exists_slice (tiling : Tiling position text tokens) :
    ∀ token ∈ tokens, token.kind ≠ .eof → ∃ before slice beyond,
      text = before ++ (slice ++ beyond) ∧
      token.position = position.afterAll before ∧
      Spelled token.kind token.lexeme slice beyond := by
  induction tiling with
  | finish =>
      rw [List.forall_mem_singleton]
      exact fun notEnd => absurd rfl notEnd
  | @token position _ _ gap slice beyond _ _ spelled _ ih =>
      rw [List.forall_mem_cons]
      refine ⟨fun _ => ⟨gap, slice, beyond, rfl, rfl, spelled⟩, fun token mem notEnd => ?_⟩
      obtain ⟨before, later, rest, rfl, place, found⟩ := ih token mem notEnd
      refine ⟨gap ++ (slice ++ before), later, rest, by simp, ?_, found⟩
      rw [place, ← Position.afterAll_append, List.append_assoc]

end Tiling

/-- The tokens of a source tile it: between gaps stand slices, one for each token in order, and
the source is nothing else.  The token for the end is the last one, there is no other, and it
stands behind the last byte.  Offsets grow from token to token, and the slice of a token begins
at its offset. -/
theorem scan_tiles_source
    (source : String)
    (tokens : List Token)
    (accepted : scan source = .ok tokens) :
    Tiling .start source.toList tokens ∧
      (∃ earlier ending,
        tokens = earlier ++ [{ kind := .eof, lexeme := "", position := ending }] ∧
        ending.offset = source.utf8ByteSize ∧
        ∀ token ∈ earlier, token.kind ≠ .eof) ∧
      (tokens.Pairwise fun earlier later => earlier.position.offset < later.position.offset) ∧
      ∀ token ∈ tokens, token.kind ≠ .eof → ∃ before slice beyond,
        source.toList = before ++ (slice ++ beyond) ∧
        token.position.offset = (String.ofList before).utf8ByteSize ∧
        Spelled token.kind token.lexeme slice beyond ∧
        (token.kind ≠ .string → slice = token.lexeme.toList) := by
  have tiling : Tiling .start source.toList tokens :=
    (scan_eq_ok_iff_tiling source tokens).1 accepted
  refine ⟨tiling, ?_, tiling.pairwise_offset, fun token mem notEnd => ?_⟩
  · obtain ⟨earlier, split, others⟩ := tiling.exists_eof
    refine ⟨earlier, _, split, ?_, others⟩
    rw [Position.offset_afterAll, String.ofList_toList]
    exact Nat.zero_add _
  · obtain ⟨before, slice, beyond, split, place, spelled⟩ := tiling.exists_slice token mem notEnd
    refine ⟨before, slice, beyond, split, ?_, spelled, spelled.slice_eq_lexeme⟩
    rw [place, Position.offset_afterAll]
    exact Nat.zero_add _

/-- A character of two bytes, an escaped quote, a comment, and a point too many. -/
theorem scan_tiles_source_of_mixed :
    ∃ tokens, scan "é+='a\\'b' # +\n1.5.2" = .ok tokens ∧
      tokens.map (·.lexeme) = ["é", "+=", "a'b", "\n", "1.5", ".", "2", ""] ∧
      tokens.map (·.position.offset) = [0, 2, 4, 14, 15, 18, 19, 20] ∧
      Tiling .start "é+='a\\'b' # +\n1.5.2".toList tokens := by
  have scanned :
      scan "é+='a\\'b' # +\n1.5.2" = .ok
        [{ kind := .identifier, lexeme := "é", position := ⟨0, 0, 0⟩ },
         { kind := .sign .plusAssign, lexeme := "+=", position := ⟨0, 1, 2⟩ },
         { kind := .string, lexeme := "a'b", position := ⟨0, 3, 4⟩ },
         { kind := .newline, lexeme := "\n", position := ⟨0, 13, 14⟩ },
         { kind := .float, lexeme := "1.5", position := ⟨1, 0, 15⟩ },
         { kind := .mark .dot, lexeme := ".", position := ⟨1, 3, 18⟩ },
         { kind := .int, lexeme := "2", position := ⟨1, 4, 19⟩ },
         { kind := .eof, lexeme := "", position := ⟨1, 5, 20⟩ }] := by
    rfl
  exact ⟨_, scanned, rfl, rfl, (scan_tiles_source _ _ scanned).1⟩

end Token
end TinyScript
