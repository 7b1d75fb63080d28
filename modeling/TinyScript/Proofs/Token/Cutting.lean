import TinyScript.Proofs.Grammar.Writing

/-!
# Cutting a text into tokens

A text whose pieces are the slices of tokens is cut into these tokens wherever it stands, as long
as what stands behind it goes on with none of them.  A list in brackets is cut into its items if
each of them is cut so.
-/

namespace TinyScript
namespace Token

open Scanner

/-- A text that is, wherever it stands, cut into certain tokens up to their places, in front of
any text that fits behind it. -/
def Cuts (text : List Char) (tokens : List Token) (fits : List Char → Prop) : Prop :=
  ∀ position beyond more, fits beyond → Tiling (position.afterAll text) beyond more →
    ∃ found, Tiling position (text ++ beyond) (found ++ more) ∧ found.map Token.erase = tokens

/-- Whatever text stands behind. -/
def anyText : List Char → Prop :=
  fun _ => True

/-- A character that goes on with no word, number or operator. -/
def isBreak (c : Char) : Bool :=
  !Text.continuesWord c && !c.isDigit && c != '.' && !isOperatorChar c

/-- What stands behind goes on with no word, number or operator. -/
def Breaks (beyond : List Char) : Prop :=
  ∀ c ∈ beyond.head?, isBreak c = true

theorem breaks_nil :
    Breaks [] :=
  fun _ mem => absurd mem (by simp)

theorem breaks_cons
    {c : Char}
    (breaks : isBreak c = true)
    (beyond : List Char) :
    Breaks (c :: beyond) := by
  rintro d ⟨⟩
  exact breaks

section Composition

variable {text other : List Char} {tokens others : List Token} {fits fits' : List Char → Prop}

theorem cuts_nil :
    Cuts [] [] fits :=
  fun _ _ _ _ tiling => ⟨[], tiling, rfl⟩

theorem Cuts.imp
    (cuts : Cuts text tokens fits)
    (fit : ∀ beyond, fits' beyond → fits beyond) :
    Cuts text tokens fits' :=
  fun position beyond more fitting => cuts position beyond more (fit beyond fitting)

theorem Cuts.append
    (first : Cuts text tokens fits)
    (second : Cuts other others fits')
    (fit : ∀ beyond, fits' beyond → fits (other ++ beyond)) :
    Cuts (text ++ other) (tokens ++ others) fits' := by
  intro position beyond more fitting tiling
  rw [Position.afterAll_append] at tiling
  obtain ⟨behind, tiledBehind, rfl⟩ := second _ beyond more fitting tiling
  obtain ⟨found, tiled, rfl⟩ := first position _ _ (fit beyond fitting) tiledBehind
  refine ⟨found ++ behind, ?_, List.map_append⟩
  rw [List.append_assoc, List.append_assoc]
  exact tiled

theorem Cuts.anywhere
    (cuts : Cuts text tokens anyText) :
    Cuts text tokens fits :=
  cuts.imp fun _ _ => trivial

/-- White space in front of a text is not seen. -/
theorem Cuts.behind_blank
    (cuts : Cuts text tokens fits) :
    Cuts (' ' :: text) tokens fits := by
  intro position beyond more fitting tiling
  obtain ⟨found, tiled, same⟩ := cuts (position.after ' ') beyond more fitting tiling
  exact ⟨found, tiled.blank (by decide) (by decide), same⟩

theorem cuts_of_spelled
    {kind : Kind}
    {lexeme : String}
    (spelled : ∀ beyond, fits beyond → Spelled kind lexeme text beyond) :
    Cuts text [{ kind := kind, lexeme := lexeme, position := .start }] fits := by
  intro position beyond more fitting tiling
  exact ⟨[{ kind := kind, lexeme := lexeme, position := position }],
    .token (.nil _) (spelled beyond fitting) tiling, rfl⟩

end Composition

/-! ## One token -/

theorem cuts_mark
    (mark : Mark) :
    Cuts [mark.spelling] [ofMark mark] anyText :=
  cuts_of_spelled fun beyond _ => .mark mark beyond

theorem isWord_append_of_isBreak
    {c : Char}
    (breaks : isBreak c = true)
    (word : List Char) :
    Text.isWord (word ++ [c]) = false := by
  have stops : Text.continuesWord c = false := by
    simp only [isBreak, Bool.and_eq_true, Bool.not_eq_true'] at breaks
    exact breaks.1.1.1
  cases word with
  | nil =>
    cases begins : Text.beginsWord c with
    | false => simp [Text.isWord, begins]
    | true => exact absurd (Text.continuesWord_of_beginsWord begins) (by simp [stops])
  | cons first rest => simp [Text.isWord, stops]

theorem cuts_word
    {word : String}
    (isWord : Text.isWord word.toList = true) :
    Cuts word.toList [ofWord word] Breaks := by
  refine cuts_of_spelled fun beyond breaks => ?_
  have ends : ∀ c ∈ beyond.head?, Text.isWord (word.toList ++ [c]) = false :=
    fun c mem => isWord_append_of_isBreak (breaks c mem) word.toList
  have spelled := Spelled.word isWord ends
  rw [String.ofList_toList] at spelled
  exact spelled

theorem isNumeral_append_of_isBreak
    {c : Char}
    (breaks : isBreak c = true)
    (digits : List Char) :
    isNumeral (digits ++ [c]) = false := by
  simp only [isBreak, Bool.and_eq_true, Bool.not_eq_true', bne_iff_ne] at breaks
  cases digits with
  | nil => simp [isNumeral, breaks.1.1.2]
  | cons first rest => simp [isNumeral, breaks.1.1.2, breaks.1.2]

theorem cuts_numeral
    {digits : List Char}
    (numeral : isNumeral digits = true) :
    Cuts digits [ofNumeral digits] Breaks :=
  cuts_of_spelled fun _ breaks =>
    .number numeral fun _ mem => isNumeral_append_of_isBreak (breaks _ mem) digits

theorem isOperatorChar_of_isDigit
    {c : Char}
    (digit : c.isDigit = true) :
    isOperatorChar c = false := by
  have others : "+-*/%=<>!&|^".toList.any Char.isDigit = false := rfl
  cases found : isOperatorChar c with
  | false => rfl
  | true =>
    rw [List.any_eq_true.2 ⟨c, List.contains_iff_mem.1 found, digit⟩] at others
    cases others

/-- A minus sign in front of a numeral is a token of its own. -/
theorem cuts_negative
    {digits : List Char}
    (numeral : isNumeral digits = true) :
    Cuts ('-' :: digits) [ofOperator "-", ofNumeral digits] Breaks := by
  have minus : Cuts ['-'] [ofOperator "-"] fun beyond =>
      ∀ c ∈ beyond.head?, isOperatorChar c = false :=
    cuts_of_spelled fun beyond ends => .run (by decide)
      (List.forall_mem_singleton.2 rfl) (by decide) ends
  refine minus.append (cuts_numeral numeral) fun beyond _ c mem => ?_
  cases digits with
  | nil => cases numeral
  | cons first rest =>
    obtain rfl : first = c := Option.mem_some.1 mem
    simp only [isNumeral, Bool.and_eq_true] at numeral
    exact isOperatorChar_of_isDigit numeral.1.1

theorem quoted_of_plain
    {text : List Char}
    (plain : ∀ c ∈ text, c ≠ '\'' ∧ c ≠ '\\') :
    Quoted '\'' text text := by
  induction text with
  | nil => exact .nil
  | cons c text ih =>
    rw [List.forall_mem_cons] at plain
    exact .plain plain.1.2 plain.1.1 (ih plain.2)

theorem cuts_string
    {text : String}
    (plain : ∀ c ∈ text.toList, c ≠ '\'' ∧ c ≠ '\\') :
    Cuts ('\'' :: (text.toList ++ ['\''])) [ofString text] anyText := by
  refine cuts_of_spelled fun beyond _ => ?_
  have spelled := Spelled.string beyond (.inr rfl) (quoted_of_plain plain)
  rw [String.ofList_toList] at spelled
  exact spelled

/-! ## Lists -/

theorem isBreak_comma :
    isBreak ',' = true :=
  rfl

section Lists

variable {α : Type} {text : α → List Char} {tokens : α → List Token}

/-- Items with commas between them. -/
theorem cuts_separated
    {entries : List α}
    (each : ∀ entry ∈ entries, Cuts (text entry) (tokens entry) Breaks) :
    Cuts ([',', ' '].intercalate (entries.map text)) (separated (entries.map tokens))
      Breaks := by
  -- One case for each equation of `separated`.
  match entries with
  | [] => exact cuts_nil
  | [last] => simpa [separated] using each last (List.mem_singleton_self _)
  | first :: second :: others =>
    have behind := cuts_separated fun entry mem => each entry (List.mem_cons_of_mem first mem)
    have comma : Cuts ([','] ++ ' ' :: [',', ' '].intercalate ((second :: others).map text))
        ([ofMark .comma] ++ separated ((second :: others).map tokens)) Breaks :=
      (cuts_mark .comma).append behind.behind_blank fun _ _ => trivial
    have whole := (each first List.mem_cons_self).append comma fun _ _ =>
      breaks_cons isBreak_comma _
    simpa [separated, List.intercalate] using whole

end Lists

theorem cuts_enclosed
    (opening closing : Mark)
    {text : List Char}
    {tokens : List Token}
    (breaks : isBreak closing.spelling = true)
    (cuts : Cuts text tokens Breaks) :
    Cuts (opening.spelling :: (text ++ [closing.spelling]))
      (enclosed opening closing tokens) anyText :=
  (cuts_mark opening).append (cuts.append (cuts_mark closing) fun _ _ => breaks_cons breaks _)
    fun _ _ => trivial

/-! ## A whole source -/

/-- A source that is cut into tokens is scanned as these. -/
theorem Cuts.exists_scan
    {source : String}
    {tokens : List Token}
    {fits : List Char → Prop}
    (cuts : Cuts source.toList tokens fits)
    (fit : fits []) :
    ∃ found, scan source = .ok found ∧
      (Program.tokensAhead found).map Token.erase = tokens := by
  obtain ⟨found, tiling, same⟩ := cuts .start [] _ fit (.finish (.nil []))
  rw [List.append_nil] at tiling
  obtain ⟨earlier, split, noEnd⟩ := tiling.exists_eof
  refine ⟨_, (scan_eq_ok_iff_tiling _ _).2 tiling, ?_⟩
  obtain ⟨rfl, -⟩ := List.append_inj' split rfl
  rw [Program.tokensAhead, List.takeWhile_append_of_pos, List.takeWhile_cons_of_neg,
    List.append_nil]
  · exact same
  · simp
  · exact fun token mem => by simpa using noEnd token mem

end Token
end TinyScript
