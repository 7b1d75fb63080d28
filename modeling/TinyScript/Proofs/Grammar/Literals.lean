import TinyScript.Proofs.Token.Cutting

/-!
# Literals

Numerals with or without a minus sign, arrays and objects are read from their tokens wherever an
expression may stand.  The tokens of the items need not be the ones that the items are printed
as: a number has several numerals, and a key that is a name needs no quotes.  A source that is cut
into the tokens of a single expression is a program of one statement.
-/

namespace TinyScript
namespace Grammar

open Token

/-- What spells a primary expression spells a value. -/
theorem spellsValue_of_primary
    {tokens : List Token}
    {value : Expr}
    (spells : Spells (.expression .primary) tokens value anything) :
    SpellsValue tokens value :=
  spells.loosen (Nat.zero_le _) fun _ _ => trivial

/-! ## Numbers -/

section Numbers

variable {digits : List Char} {number : Float} (reads : Number.read? digits = some number)

include reads

theorem spellsValue_numeral :
    SpellsValue [ofNumeral digits] (.number .start number) :=
  spellsValue_of_primary (spells_numeral .start reads)

/-- A minus sign and a numeral spell a negative number. -/
theorem spellsValue_negative :
    SpellsValue [ofOperator "-", ofNumeral digits]
      (.unary .start .minus (.number .start number)) := by
  have numeral : Spells (.expression .unary) [ofNumeral digits] (.number .start number)
      (Follows .unary) :=
    (spells_numeral .start reads).loosen (Level.rank_le_primary _) fun _ _ => trivial
  have negative := spells_leading .start (Expr.unary · .minus) (fun _ => leading?_of_unary)
    (fun _ _ => rfl) numeral
  exact negative.loosen (Nat.zero_le _) fun _ follows => follows.of_le (Nat.zero_le _)

end Numbers

/-! ## Arrays and objects -/

section Lists

variable {α : Type} {tokens : α → List Token} {entries : List α}

/-- Literals in square brackets spell the literal of an array. -/
theorem spellsValue_array
    {tree : α → Expr}
    (each : ∀ entry ∈ entries, SpellsValue (tokens entry) (tree entry)) :
    SpellsValue (enclosed .openBracket .closeBracket (separated (entries.map tokens)))
      (.array .start (entries.map tree)) :=
  spellsValue_of_primary (spells_array .start each)

/-- The keys are names without quotes. -/
theorem spellsValue_object
    {key : α → String}
    {tree : α → Expr}
    (names : ∀ entry ∈ entries, IsName (key entry))
    (each : ∀ entry ∈ entries, SpellsValue (tokens entry) (tree entry)) :
    SpellsValue
      (braced (separated (entries.map fun entry =>
        ofWord (key entry) :: ofMark .colon :: tokens entry)))
      (.object .start (entries.map fun entry => .mk (key entry) (tree entry))) :=
  spellsValue_of_primary <| spells_object .start fun entry mem =>
    spells_property (.inl (names entry mem).2) (each entry mem)

end Lists

/-! ## A source of one expression -/

/-- A source that is cut into the tokens of an expression is a program that evaluates it. -/
theorem exists_ofSource_of_cuts
    {source : String}
    {tokens : List Token}
    {value : Expr}
    (cuts : Cuts source.toList tokens Breaks)
    (spells : SpellsValue tokens value) :
    ∃ parsed : Expr, Program.ofSource source = .ok [.expr parsed.position parsed] ∧
      parsed.erase = value.erase := by
  obtain ⟨found, scanned, same⟩ := cuts.exists_scan breaks_nil
  obtain ⟨parsed, derives, erased⟩ := spells _ [] same (follows_nil _)
  exact ⟨parsed, ofSource_of_derives scanned derives.program_of_value, erased⟩

end Grammar
end TinyScript
