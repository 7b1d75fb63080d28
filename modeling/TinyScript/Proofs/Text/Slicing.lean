import TinyScript.Machine
import TinyScript.Proofs.Number.Order

/-!
# Slices of a text

A slice of a text is given by two numbers, a character by one.  Both are checked
as numbers and used as indices, and the checks are such that no index is out of
range.  Slices up to a number and from it on make up the text, and a character is
the slice up to the next integer (`Machine.apply_substring_and_charAt`).
-/

namespace TinyScript

open Number

/-! ## What is checked and what is cut -/

namespace Method

variable {text : List Char} {a b x : Float} {p q : ℚ}

/-- Between two numbers in order and in a text stand the characters between their integer parts. -/
theorem substringOf_of_bounds
    (small : text.length < 2 ^ 53)
    (start : Denotes a p)
    (stop : Denotes b q)
    (notBelow : 0 ≤ p)
    (order : p ≤ q)
    (inside : q ≤ text.length) :
    substringOf text a b = .ok (String.ofList ((text.take ⌊q⌋₊).drop ⌊p⌋₊)) := by
  have allowed : a ≤ b ∧ b ≤ Float.ofNat text.length :=
    ⟨(start.le_iff stop).2 order, (stop.le_iff (denotes_ofNat small)).2 inside⟩
  simp only [substringOf, start.index?_of_nonneg notBelow,
    stop.index?_of_nonneg (notBelow.trans order), if_pos allowed]

/-- Nothing is cut between any other two numbers. -/
theorem substringOf_of_not_bounds
    (small : text.length < 2 ^ 53)
    (outside : ¬ ∃ p q : ℚ,
      Denotes a p ∧ Denotes b q ∧ 0 ≤ p ∧ p ≤ q ∧ q ≤ text.length) :
    substringOf text a b = .error (.substringRange a b text.length) := by
  cases first : index? a with
  | none => simp only [substringOf, first]
  | some i =>
    cases last : index? b with
    | none => simp only [substringOf, first, last]
    | some j =>
      obtain ⟨p, start, notBelow⟩ := exists_denotes_of_index? first
      obtain ⟨q, stop, -⟩ := exists_denotes_of_index? last
      have refused : ¬ (a ≤ b ∧ b ≤ Float.ofNat text.length) := by
        rintro ⟨order, inside⟩
        exact outside ⟨p, q, start, stop, notBelow, (start.le_iff stop).1 order,
          (stop.le_iff (denotes_ofNat small)).1 inside⟩
      simp only [substringOf, first, last, if_neg refused]

/-- The character at an integer of a text is the slice up to the next one. -/
theorem characterAt_of_denotes
    {i : Nat}
    (denotes : Denotes x i)
    (inside : i < text.length) :
    characterAt text x = String.ofList ((text.take (i + 1)).drop i) := by
  have slice : (text.take (i + 1)).drop i = [text[i]] := by
    rw [List.drop_take, Nat.add_sub_cancel_left, List.drop_eq_getElem_cons inside]
    rfl
  rw [characterAt, denotes.index?_of_nonneg (Nat.cast_nonneg i), Nat.floor_natCast]
  simp only [List.getElem?_eq_getElem inside, slice]
  rfl

/-- There is no character at an integer outside a text and at what is not finite. -/
theorem characterAt_of_outside
    (outside : x.isFinite = false ∨ ∃ z : Int, Denotes x z ∧ (z < 0 ∨ text.length ≤ z)) :
    characterAt text x = "" := by
  rcases outside with notFinite | ⟨z, denotes, below | behind⟩
  · rw [characterAt, index?_of_not_finite notFinite]
  · rw [characterAt, denotes.index?_of_neg (by exact_mod_cast below)]
  · obtain ⟨i, rfl⟩ := Int.eq_ofNat_of_zero_le (Int.le_trans (Int.natCast_nonneg _) behind)
    rw [Int.cast_natCast] at denotes
    rw [characterAt, denotes.index?_of_nonneg (Nat.cast_nonneg i), Nat.floor_natCast]
    simp only [List.getElem?_eq_none (Int.ofNat_le.1 behind)]
    rfl

end Method

/-- Two texts are added by writing them one behind the other. -/
theorem Store.binary_add_text
    (store : Store)
    (front back : String) :
    store.binary (.arithmetic .add) (.string front) (.string back) =
      .ok (.string (front ++ back)) := by
  simp [Store.binary, Store.arithmetic, Value.typeTag, Store.display, Store.renderUpTo]

/-! ## Calls -/

namespace Machine

/-- A call of the function that cuts a text gives the slice or fails for the reason that there is
none. -/
theorem apply_substring
    (m : Machine)
    (text : String)
    (a b : Float)
    (position : Option Position) :
    m.apply (.method (.string text) .substring) [.number a, .number b] position =
      match Method.substringOf text.toList a b with
      | .ok piece => m.give (.string piece)
      | .error cause => m.fail position cause := by
  simp only [apply, Method.perform, Method.runText, Arguments.number, bind, Except.bind]
  cases Method.substringOf text.toList a b <;> rfl

/-- Without a second number the text is cut up to its end. -/
theorem apply_substring_of_one
    (m : Machine)
    (text : String)
    (a : Float)
    (position : Option Position) :
    m.apply (.method (.string text) .substring) [.number a] position =
      m.apply (.method (.string text) .substring) [.number a, .number (Float.ofNat text.length)]
        position :=
  rfl

theorem apply_charAt
    (m : Machine)
    (text : String)
    (x : Float)
    (position : Option Position) :
    m.apply (.method (.string text) .charAt) [.number x] position =
      m.give (.string (Method.characterAt text.toList x)) :=
  rfl

/-- Slices of a text.  Between two numbers there is a slice exactly if both are finite, in order
and between zero and the length.  Then it is the characters from the integer part of the one up to
that of the other, which are in order and in the text too; otherwise the call fails.  The slice up
to a number and the slice from it on are together the text.  The character at an integer in the
text is the slice from there up to the next integer, and at any other integer, and at what is not
finite, it is the empty text. -/
theorem apply_substring_and_charAt
    (m : Machine)
    (position : Option Position)
    (text : String)
    (small : text.length < 2 ^ 53) :
    (∀ a b : Float,
      (∀ p q : ℚ, Denotes a p → Denotes b q → 0 ≤ p → p ≤ q → q ≤ text.length →
        ⌊p⌋₊ ≤ ⌊q⌋₊ ∧ ⌊q⌋₊ ≤ text.length ∧
        m.apply (.method (.string text) .substring) [.number a, .number b] position =
          m.give (.string (String.ofList ((text.toList.take ⌊q⌋₊).drop ⌊p⌋₊)))) ∧
      ((¬ ∃ p q : ℚ,
          Denotes a p ∧ Denotes b q ∧ 0 ≤ p ∧ p ≤ q ∧ q ≤ text.length) →
        m.apply (.method (.string text) .substring) [.number a, .number b] position =
          m.fail position (.substringRange a b text.length))) ∧
    (∀ (k : Float) (p : ℚ), Denotes k p → 0 ≤ p → p ≤ text.length → ∃ front back,
      m.apply (.method (.string text) .substring) [.number 0.0, .number k] position =
        m.give (.string front) ∧
      m.apply (.method (.string text) .substring) [.number k] position =
        m.give (.string back) ∧
      m.store.binary (.arithmetic .add) (.string front) (.string back) = .ok (.string text)) ∧
    (∀ (x : Float) (i : Nat), Denotes x i → i < text.length → ∃ piece,
      m.apply (.method (.string text) .charAt) [.number x] position = m.give (.string piece) ∧
      Denotes (x + 1.0) (i + 1 : Nat) ∧
      m.apply (.method (.string text) .substring) [.number x, .number (x + 1.0)] position =
        m.give (.string piece)) ∧
    ∀ x : Float,
      (x.isFinite = false ∨ ∃ z : Int, Denotes x z ∧ (z < 0 ∨ text.length ≤ z)) →
      m.apply (.method (.string text) .charAt) [.number x] position = m.give (.string "") := by
  have length : text.toList.length = text.length := String.length_toList
  have cuts {a b : Float} {p q : ℚ} (start : Denotes a p) (stop : Denotes b q)
      (notBelow : 0 ≤ p) (order : p ≤ q) (inside : q ≤ text.length) :
      m.apply (.method (.string text) .substring) [.number a, .number b] position =
        m.give (.string (String.ofList ((text.toList.take ⌊q⌋₊).drop ⌊p⌋₊))) := by
    rw [apply_substring,
      Method.substringOf_of_bounds (length ▸ small) start stop notBelow order
        (length.symm ▸ inside)]
  refine ⟨fun a b => ⟨fun p q start stop notBelow order inside => ?_, fun outside => ?_⟩,
    fun k p denotes notBelow inside => ?_, fun x i denotes inside => ?_, fun x outside => ?_⟩
  · have last : ⌊q⌋₊ ≤ text.length := by
      rw [← Nat.floor_natCast (R := ℚ) text.length]
      exact Nat.floor_le_floor inside
    exact ⟨Nat.floor_le_floor order, last, cuts start stop notBelow order inside⟩
  · rw [apply_substring, Method.substringOf_of_not_bounds (length ▸ small)
      (length.symm ▸ outside), length]
  · have whole : Denotes (Float.ofNat text.length) (text.length : Nat) := denotes_ofNat small
    refine ⟨_, _, cuts .zero denotes le_rfl notBelow inside,
      (m.apply_substring_of_one text k position).trans
        (cuts denotes whole notBelow inside le_rfl), ?_⟩
    rw [Nat.floor_zero, List.drop_zero, Nat.floor_natCast, ← length, List.take_length,
      Store.binary_add_text, ← String.ofList_append, List.take_append_drop, String.ofList_toList]
  · have next : i + 1 ≤ text.length := inside
    have behind : Denotes (x + 1.0) (i + 1 : Nat) := denotes.add_one (by omega)
    refine ⟨_, m.apply_charAt text x position, behind, ?_⟩
    rw [Method.characterAt_of_denotes denotes (length.symm ▸ inside),
      cuts denotes behind (Nat.cast_nonneg i) (Nat.cast_le.2 i.le_succ) (Nat.cast_le.2 next),
      Nat.floor_natCast, Nat.floor_natCast]
  · rw [apply_charAt, Method.characterAt_of_outside (length.symm ▸ outside)]

/-- Bounds between two characters of several bytes, bounds that are not in order, and a place behind
the end. -/
theorem apply_substring_and_charAt_of_fractions :
    let m : Machine := { control := .give .void, scope := ⟨0⟩, stack := [], store := .empty }
    m.apply (.method (.string "aéñb") .substring) [.number 1.5, .number 3.0] none =
        m.give (.string "éñ") ∧
      m.apply (.method (.string "aéñb") .substring) [.number 3.0, .number 1.5] none =
        m.fail none (.substringRange 3.0 1.5 4) ∧
      (∃ front back,
        m.apply (.method (.string "aéñb") .substring) [.number 0.0, .number 1.5] none =
          m.give (.string front) ∧
        m.apply (.method (.string "aéñb") .substring) [.number 1.5] none =
          m.give (.string back) ∧
        m.store.binary (.arithmetic .add) (.string front) (.string back) =
          .ok (.string "aéñb")) ∧
      (∃ piece,
        m.apply (.method (.string "aéñb") .charAt) [.number 3.0] none = m.give (.string piece) ∧
        m.apply (.method (.string "aéñb") .substring) [.number 3.0, .number (3.0 + 1.0)] none =
          m.give (.string piece)) ∧
      m.apply (.method (.string "aéñb") .charAt) [.number 4.0] none = m.give (.string "") ∧
      m.apply (.method (.string "aéñb") .charAt) [.number nan] none = m.give (.string "") := by
  intro m
  have length : "aéñb".length = 4 := by decide
  have half : Denotes 1.5 (3 / 2) :=
    ⟨{ negative := false, mantissa := 6755399441055744, exponent := -52 }, by decide +kernel,
      by norm_num [Exact.value, Exact.magnitude]⟩
  have three : Denotes 3.0 (3 : Nat) :=
    ⟨{ negative := false, mantissa := 6755399441055744, exponent := -51 }, by decide +kernel,
      by norm_num [Exact.value, Exact.magnitude]⟩
  have four : Denotes 4.0 (4 : Int) :=
    ⟨{ negative := false, mantissa := 4503599627370496, exponent := -50 }, by decide +kernel,
      by norm_num [Exact.value, Exact.magnitude]⟩
  have floor : ⌊(3 / 2 : ℚ)⌋₊ = 1 := by
    rw [Nat.floor_eq_iff (by norm_num)]
    norm_num
  obtain ⟨cuts, parts, characters, outside⟩ :=
    apply_substring_and_charAt m none "aéñb" (by rw [length]; decide)
  rw [length] at cuts parts characters outside
  obtain ⟨-, -, slice⟩ := (cuts 1.5 3.0).1 _ _ half three (by norm_num) (by norm_num)
    (by norm_num)
  obtain ⟨piece, character, -, single⟩ := characters 3.0 3 three (by decide)
  refine ⟨?_, (cuts 3.0 1.5).2 ?_, parts 1.5 _ half (by norm_num) (by norm_num),
    ⟨piece, character, single⟩,
    outside 4.0 (.inr ⟨4, four, .inr (by decide)⟩),
    outside nan (.inl (by decide +kernel))⟩
  · rw [slice, Nat.floor_natCast, floor]
    rfl
  · rintro ⟨p, q, start, stop, -, order, -⟩
    rw [start.unique three, stop.unique half] at order
    norm_num at order

end Machine
end TinyScript
