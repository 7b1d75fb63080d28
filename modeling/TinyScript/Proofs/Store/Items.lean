import TinyScript.Proofs.Store.Keys

/-!
# Items of arrays by number

A number is the key that its text is, and an array reads the text as an index.
What comes of the two together is the item that the number counts: the integers
from zero up to the length are found, and no other number is the key of anything
in an array (`Store.member_array_of_number`).
-/

namespace TinyScript
namespace Store

/-- No member function of arrays has a name that a number is displayed by, also if it is none. -/
theorem find?_array_display
    (x : Float) :
    Method.find? .array (Number.display x) = none := by
  cases noNumber : x.isNaN with
  | false => exact find?_array_of_number noNumber
  | true =>
    rw [Number.display_of_isNaN noNumber]
    rfl

/-- Behind a number there is the item whose index the text of the number says, or nothing. -/
theorem member_array_number
    (store : Store)
    (ref : ArrayRef)
    (x : Float) :
    store.member (.array ref) (.number x) =
      .ok (((Number.readIndex? (Number.display x).toList).bind
        ((store.array ref)[·]?)).getD .undefined) :=
  member_array rfl (find?_array_display x) store ref

/-- An array that is read at a number gives the item at the integer that the number is equal to.
At every other number there is nothing: at fractions, below zero, from the length on, however far,
and at what is no number.  The decimal text of the integer reads the same item. -/
theorem member_array_of_number
    (store : Store)
    (ref : ArrayRef)
    (small : (store.array ref).size < 2 ^ 53)
    (x : Float) :
    (∀ (i : Nat) (item : Value),
      (store.array ref)[i]? = some item →
      (x == Float.ofNat i) = true →
      store.member (.array ref) (.number x) = .ok item ∧
        store.member (.array ref) (.string (toString i)) = .ok item) ∧
    ((∀ i < (store.array ref).size, (x == Float.ofNat i) = false) →
      store.member (.array ref) (.number x) = .ok .undefined) := by
  constructor
  · intro i item found integer
    obtain ⟨inside, -⟩ := Array.getElem?_eq_some_iff.1 found
    have below : i < 2 ^ 53 := Nat.lt_trans inside small
    have reads : Number.readIndex? (toString i).toList = some i :=
      Number.readIndex?_toString (Nat.lt_trans below (by decide))
    constructor
    · rw [member_array_number, (Number.readIndex?_display_eq_some_iff below).2 integer,
        Option.bind_some, found, Option.getD_some]
    · have own : store.own? (.array ref) (toString i) = some item := by
        rw [own?, reads, Option.bind_some, found]
      simp only [member, keyText, own, bind, Except.bind]
      rfl
  · intro other
    rw [member_array_number]
    cases read : Number.readIndex? (Number.display x).toList with
    | none => rfl
    | some i =>
      have outside : (store.array ref).size ≤ i := by
        by_contra inside
        have differs := other i (Nat.lt_of_not_le inside)
        rw [(Number.readIndex?_display_eq_some_iff (by omega)).1 read] at differs
        cases differs
      rw [Option.bind_some, Array.getElem?_eq_none outside, Option.getD_none]

/-- A zero below zero reads the first item, and a fraction, the length and an infinite number read
nothing. -/
theorem member_array_of_number_of_pair :
    let store : Store := { Store.empty with arrays := #[#[.bool true, .bool false]] }
    store.member (.array ⟨0⟩) (.number (-0.0)) = .ok (.bool true) ∧
      store.member (.array ⟨0⟩) (.string "0") = .ok (.bool true) ∧
      ∀ x ∈ [0.5, -1.0, 2.0, Number.infinity, Number.nan],
        store.member (.array ⟨0⟩) (.number x) = .ok .undefined := by
  intro store
  have small : (store.array ⟨0⟩).size < 2 ^ 53 := by decide
  have zero := (member_array_of_number store ⟨0⟩ small (-0.0)).1 0 (.bool true) rfl rfl
  refine ⟨zero.1, zero.2, fun x mem => (member_array_of_number store ⟨0⟩ small x).2 ?_⟩
  revert x
  decide +kernel

end Store
end TinyScript
