import Mathlib.Data.List.Basic
import TinyScript.Machine

/-!
# Splitting and joining

The pieces of a text, joined by what it was split at, are the text again (`join_split`).  The other
way round, what is joined by a character splits into the same pieces if that character is in none of
them (`split_join`), and without a separator if each of them is one character
(`split_join_characters`).
-/

namespace TinyScript
namespace Text

/-! ## Pieces between separators -/

section Pieces

variable {separator : List Char}

/-- Splitting goes on with a piece, so there always is one. -/
theorem splitFrom_ne_nil
    (skip : Nat)
    (piece text : List Char) :
    splitFrom separator skip piece text ≠ [] := by
  induction text generalizing skip piece with
  | nil => cases skip <;> exact List.cons_ne_nil _ _
  | cons c rest ih =>
    cases skip with
    | succ skip => exact ih skip piece
    | zero =>
      rw [splitFrom]
      split
      · exact List.cons_ne_nil _ _
      · exact ih 0 (c :: piece)

/-- Joined again, the pieces are what has been read of the first one and the text behind the
characters that are skipped. -/
theorem intercalate_splitFrom
    (nonempty : separator ≠ [])
    (skip : Nat)
    (piece text : List Char) :
    separator.intercalate (splitFrom separator skip piece text) =
      piece.reverse ++ text.drop skip := by
  induction text generalizing skip piece with
  | nil => cases skip <;> simp [splitFrom]
  | cons c rest ih =>
    cases skip with
    | succ skip => exact ih skip piece
    | zero =>
      rw [splitFrom, List.drop_zero]
      split
      case isTrue found =>
        obtain ⟨behind, same⟩ := List.isPrefixOf_iff_prefix.1 found
        obtain ⟨first, others, rfl⟩ := List.exists_cons_of_ne_nil nonempty
        obtain ⟨-, rfl⟩ := List.cons.inj same
        rw [List.intercalate_cons_of_ne_nil (splitFrom_ne_nil _ _ _), ih]
        simp [same]
      case isFalse =>
        rw [ih, List.reverse_cons, List.append_assoc, List.singleton_append, List.drop_zero]

/-- At a separator of one character nothing is skipped. -/
theorem splitFrom_singleton
    (mark : Char)
    (piece text : List Char) :
    splitFrom [mark] 0 piece text = List.splitOnPPrepend (· == mark) text piece := by
  induction text generalizing piece with
  | nil => rfl
  | cons c rest ih =>
    have begins : [mark].isPrefixOf (c :: rest) = (c == mark) := by
      simp [List.isPrefixOf, Bool.beq_comm (a := mark)]
    rw [splitFrom, begins, List.splitOnPPrepend_cons_eq_if]
    split
    · rw [List.length_singleton, Nat.sub_self, ih, List.splitOnPPrepend_nil_right]
    · exact ih (c :: piece)

end Pieces

/-! ## Splitting, then joining -/

/-- Without a separator, joining is stringing together. -/
theorem nil_intercalate
    (pieces : List (List Char)) :
    [].intercalate pieces = pieces.flatten := by
  induction pieces with
  | nil => rfl
  | cons first others ih =>
    cases others with
    | nil => simp
    | cons second others =>
      rw [List.intercalate_cons_cons, ih, List.append_nil, List.flatten_cons (l := first)]

/-- The pieces of a text joined by the separator are the text. -/
theorem join_split
    (separator text : String) :
    separator.intercalate (split separator text) = text := by
  rw [← String.toList_inj, String.toList_intercalate, split]
  split
  case isTrue empty =>
    rw [String.isEmpty_iff.1 empty, String.toList_empty, nil_intercalate, List.map_map,
      ← List.flatMap_def]
    simp [Function.comp_def]
  case isFalse nonempty =>
    have characters : separator.toList ≠ [] := fun none =>
      nonempty (String.isEmpty_iff.2 (String.toList_inj.1 none))
    rw [List.map_map, Function.comp_def]
    simp [intercalate_splitFrom characters]

/-! ## Joining, then splitting -/

/-- What is joined by a character splits there into the same pieces, if none of them has that
character. -/
theorem split_join
    {mark : Char}
    {pieces : List String}
    (nonempty : pieces ≠ [])
    (absent : ∀ piece ∈ pieces, mark ∉ piece.toList) :
    split (String.singleton mark) ((String.singleton mark).intercalate pieces) = pieces := by
  have isMark : (String.singleton mark).isEmpty = false := by simp
  have each : ∀ piece ∈ pieces.map String.toList, mark ∉ piece := by simpa using absent
  rw [split, isMark, if_neg Bool.false_ne_true, String.toList_intercalate,
    String.toList_singleton, splitFrom_singleton, List.splitOnPPrepend_nil_right,
    ← List.splitOn_eq_splitOnP, List.splitOn_intercalate mark each (by simpa using nonempty),
    List.map_map]
  simp [Function.comp_def]

/-- Characters that are strung together are split again where no separator is given. -/
theorem split_join_characters
    {pieces : List String}
    (single : ∀ piece ∈ pieces, piece.length = 1) :
    split "" ("".intercalate pieces) = pieces := by
  rw [split, if_pos (String.isEmpty_iff.2 rfl), String.toList_intercalate, String.toList_empty,
    nil_intercalate]
  induction pieces with
  | nil => rfl
  | cons first others ih =>
    rw [List.forall_mem_cons] at single
    obtain ⟨c, character⟩ := List.length_eq_one_iff.1 (String.length_toList.trans single.1)
    rw [List.map_cons, List.flatten_cons, List.map_append, ih single.2, character,
      List.map_singleton, List.singleton_append, ← String.ofList_toList (s := first), character]
    rfl

end Text

namespace Machine

/-! ## Calls -/

/-- A text that is split yields an array of its pieces. -/
theorem exists_apply_split
    (m : Machine)
    (text separator : String)
    (position : Option Position) :
    ∃ ref, (m.apply (.method (.string text) .split) [.string separator] position).control =
        .give (.array ref) ∧
      (m.apply (.method (.string text) .split) [.string separator] position).store.array ref =
        ((Text.split separator text).map Value.string).toArray :=
  ⟨_, rfl, Store.array_newArray m.store _⟩

/-- An array of texts is joined to one text. -/
theorem apply_join
    {m : Machine}
    {ref : ArrayRef}
    {texts : List String}
    (items : (m.store.array ref).toList = texts.map Value.string)
    (separator : String)
    (position : Option Position) :
    m.apply (.method (.array ref) .join) [.string separator] position =
      m.give (.string (separator.intercalate texts)) := by
  have displayed : (m.store.array ref).toList.map m.store.display = texts := by
    have each : m.store.display ∘ Value.string = id := by
      funext text
      simp [Store.display, Store.renderUpTo]
    rw [items, List.map_map, each, List.map_id]
  rw [← displayed]
  rfl

/-- Splitting a text and joining the pieces by the same separator, the empty one included, gives the
text back.  Joining an array of texts and splitting the whole gives an array of the same texts in
the same order, if the separator is a character that is in none of them and there is any of them, or
if the separator is empty and each of them is one character. -/
theorem apply_split_and_join
    (m : Machine)
    (position later : Option Position) :
    (∀ text separator : String,
      let pieces := m.apply (.method (.string text) .split) [.string separator] position
      ∃ ref, pieces.control = .give (.array ref) ∧
        pieces.apply (.method (.array ref) .join) [.string separator] later =
          pieces.give (.string text)) ∧
    ∀ (ref : ArrayRef) (texts : List String) (separator : String),
      (m.store.array ref).toList = texts.map Value.string →
      (texts ≠ [] ∧ ∃ mark, separator = String.singleton mark ∧
          ∀ text ∈ texts, mark ∉ text.toList) ∨
        (separator = "" ∧ ∀ text ∈ texts, text.length = 1) →
      let joined := separator.intercalate texts
      m.apply (.method (.array ref) .join) [.string separator] position =
          m.give (.string joined) ∧
        let pieces := m.apply (.method (.string joined) .split) [.string separator] later
        ∃ copy, pieces.control = .give (.array copy) ∧
          pieces.store.array copy = m.store.array ref := by
  constructor
  · intro text separator pieces
    obtain ⟨ref, gives, items⟩ := m.exists_apply_split text separator position
    refine ⟨ref, gives, ?_⟩
    rw [apply_join (congrArg Array.toList items), Text.join_split]
  · intro ref texts separator items splits joined
    have same : Text.split separator joined = texts := by
      rcases splits with ⟨nonempty, mark, rfl, absent⟩ | ⟨rfl, single⟩
      · exact Text.split_join nonempty absent
      · exact Text.split_join_characters single
    obtain ⟨copy, gives, pieces⟩ := m.exists_apply_split joined separator later
    refine ⟨apply_join items separator position, copy, gives, ?_⟩
    rw [pieces, same, ← items, Array.toArray_toList]

/-- Texts that are empty, that have several characters and that occur twice are joined by a comma,
and characters by nothing. -/
theorem apply_split_and_join_of_repeated :
    let store : Store :=
      { Store.empty with
        arrays := #[#[.string "", .string "añb", .string ""], #[.string ",", .string ","]] }
    let m : Machine := { control := .give .void, scope := ⟨0⟩, stack := [], store := store }
    let pieces := m.apply (.method (.string ",añb,") .split) [.string ","] none
    let characters := m.apply (.method (.string ",,") .split) [.string ""] none
    m.apply (.method (.array ⟨0⟩) .join) [.string ","] none = m.give (.string ",añb,") ∧
      (∃ copy, pieces.control = .give (.array copy) ∧
        pieces.store.array copy = #[.string "", .string "añb", .string ""]) ∧
      ∃ copy, characters.control = .give (.array copy) ∧
        characters.store.array copy = #[.string ",", .string ","] := by
  intro store m pieces characters
  obtain ⟨joined, split⟩ :=
    (apply_split_and_join m none none).2 ⟨0⟩ ["", "añb", ""] "," rfl
      (.inl ⟨by decide, ',', rfl, by decide⟩)
  obtain ⟨-, splitToo⟩ :=
    (apply_split_and_join m none none).2 ⟨1⟩ [",", ","] "" rfl (.inr ⟨rfl, by decide⟩)
  exact ⟨joined, split, splitToo⟩

end Machine
end TinyScript
