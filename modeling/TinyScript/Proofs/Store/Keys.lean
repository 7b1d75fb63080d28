import TinyScript.Operation
import TinyScript.Proofs.Number.Indices

/-!
# Keys of arrays and objects

An assignment to a member and a read of it come from the key to the place by different ways.  In an
object they always meet.  In an array they meet at the keys that count its items, and at no other
key: what is written at the integer part of a fraction is not found under the fraction again
(`member_put`).
-/

namespace TinyScript

/-- A key counts the items of an array: an integer that is not below zero, or its decimal digits,
behind a plus sign or not. -/
def Value.IsCount : Value → Prop
  | .number x => ∃ n : Nat, (x == Float.ofNat n) = true
  | .string text => Number.IsCount text.toList
  | _ => False

namespace Store

variable {store : Store} {key value : Value} {place : Place} {number : Float} {text : String}

/-! ## The key of an item -/

/-- Texts that name no method of arrays find none. -/
theorem find?_array_eq_none
    (noName : ∀ method ∈ Method.ofType .array, method.name ≠ text) :
    Method.find? .array text = none :=
  List.find?_eq_none.2 fun method mem => by simpa using noName method mem

/-- No member function of arrays has a name that a number is displayed by. -/
theorem find?_array_of_number
    {x : Float}
    (isNumber : x.isNaN = false) :
    Method.find? .array (Number.display x) = none := by
  refine find?_array_eq_none fun method mem same => ?_
  obtain ⟨first, rest, characters, begins, -⟩ := Number.exists_cons_display isNumber
  rw [← same] at characters
  simp only [Method.ofType, List.mem_cons, List.not_mem_nil, or_false] at mem
  rcases mem with rfl | rfl | rfl | rfl | rfl <;> cases characters <;>
    exact absurd begins (by decide)

/-- No member function of arrays has a name that is read as a number. -/
theorem find?_array_of_read?
    {x : Float}
    (read : Number.read? text.toList = some x) :
    Method.find? .array text = none := by
  have noNumeral : ∀ method ∈ Method.ofType .array,
      Number.read? method.name.toList = none := by
    decide +kernel
  refine find?_array_eq_none fun method mem same => ?_
  rw [← same, noNumeral method mem] at read
  cases read

/-- The key of an item that is written has a text, under which no member function is found. -/
theorem keyText_of_indexNumber
    (counts : indexNumber key = .ok number)
    {index : Nat}
    (found : Number.index? number = some index) :
    ∃ text, keyText key = .ok text ∧ Method.find? .array text = none ∧
      (index < 2 ^ 53 →
        (key.IsCount → Number.readIndex? text.toList = some index) ∧
        (¬ key.IsCount → Number.readIndex? text.toList = none)) := by
  cases key with
  | number x =>
    cases counts
    obtain ⟨e, exact, -, -⟩ := Number.exact_of_index? found
    refine ⟨_, rfl, find?_array_of_number (Number.isNaN_of_ofFloat? exact), fun small => ?_⟩
    rw [Number.readIndex?_display found small]
    constructor
    · rintro ⟨m, integer⟩
      exact if_pos (Number.beq_ofNat_of_index? integer found small)
    · intro other
      exact if_neg fun integer => other ⟨index, integer⟩
  | string text =>
    simp only [indexNumber] at counts
    split at counts
    · rename_i read
      cases counts
      refine ⟨text, rfl, find?_array_of_read? read, fun small => ⟨fun count => ?_, fun other => ?_⟩⟩
      · exact Number.readIndex?_of_isCount count read found small
      · exact Number.readIndex?_of_not_isCount other
    · cases counts
  | _ => cases counts

/-! ## Reading what was written -/

/-- An item is written at the index that its key counts to, if the array has one there. -/
theorem place_array_iff
    {ref : ArrayRef} :
    store.place (.array ref) key = .ok place ↔
      ∃ number index, indexNumber key = .ok number ∧ Number.index? number = some index ∧
        index < (store.array ref).size ∧ place = .item ref index := by
  simp only [Store.place, bind, Except.bind]
  constructor
  · intro allowed
    split at allowed
    · cases allowed
    · rename_i number counts
      split at allowed
      · rename_i index found
        split at allowed
        · rename_i inside
          cases allowed
          exact ⟨number, index, counts, found, inside, rfl⟩
        · cases allowed
      · cases allowed
  · rintro ⟨number, index, counts, found, inside, rfl⟩
    simp only [counts, found, if_pos inside]
    rfl

/-- A text that is no method reads the item at the index that it is, or nothing. -/
theorem member_array
    {text : String}
    (isText : keyText key = .ok text)
    (noMethod : Method.find? .array text = none)
    (store : Store)
    (ref : ArrayRef) :
    store.member (.array ref) key =
      .ok (((Number.readIndex? text.toList).bind ((store.array ref)[·]?)).getD .undefined) := by
  simp only [member, isText, own?, bind, Except.bind]
  cases (Number.readIndex? text.toList).bind ((store.array ref)[·]?) with
  | some found => rfl
  | none =>
    simp only [Value.typeTag, noMethod]
    rfl

/-- What was written in an array is read at the same index, and at no other. -/
theorem getElem?_put
    {ref : ArrayRef}
    {index : Nat}
    (inside : index < (store.array ref).size)
    (value : Value)
    (other : Nat) :
    ((store.put value (.item ref index)).array ref)[other]? =
      if index = other then some value else (store.array ref)[other]? := by
  have known : ref.index < store.arrays.size := by
    by_contra unknown
    simp [array, unknown] at inside
  rw [put, array_modifyArray_self known, Array.getElem?_setIfInBounds]
  split
  · rfl
  · rfl

/-- A property that has been written is read back. -/
theorem member_put_property
    {ref : ObjectRef}
    (known : ref.index < store.objects.size)
    (allowed : store.place (.object ref) key = .ok place) :
    (store.put value place).member (.object ref) key = .ok value := by
  simp only [Store.place, bind, Except.bind] at allowed
  split at allowed
  · cases allowed
  · rename_i text isText
    cases allowed
    simp only [member, isText, own?, put, object_setProperty_self known, Table.find?_insert_self,
      bind, Except.bind]
    rfl

/-- The key of an item that has been written reads the item if it counts items, and otherwise what
it read before. -/
theorem member_put_item
    {ref : ArrayRef}
    {index : Nat}
    (counts : indexNumber key = .ok number)
    (found : Number.index? number = some index)
    (inside : index < (store.array ref).size) :
    let later := store.put value (.item ref index)
    (later.member (.array ref) key = .ok value ∨
        later.member (.array ref) key = store.member (.array ref) key) ∧
      (index < 2 ^ 53 →
        (key.IsCount → later.member (.array ref) key = .ok value) ∧
        (¬ key.IsCount → later.member (.array ref) key = .ok .undefined ∧
          store.member (.array ref) key = .ok .undefined)) := by
  intro later
  obtain ⟨text, isText, noMethod, reads⟩ := keyText_of_indexNumber counts found
  simp only [member_array isText noMethod]
  refine ⟨?_, fun small => ⟨fun count => ?_, fun other => ?_⟩⟩
  · cases Number.readIndex? text.toList with
    | none => exact .inr rfl
    | some place =>
      simp only [Option.bind_some, later, getElem?_put inside value place]
      split
      · exact .inl rfl
      · exact .inr rfl
  · rw [(reads small).1 count]
    simp only [Option.bind_some, later, getElem?_put inside value index, if_true]
    rfl
  · rw [(reads small).2 other]
    exact ⟨rfl, rfl⟩

/-- What was written under a key is read under the same key, in an object always, and in an array
if the key counts its items.  What was written under another key of an array is not: nothing is
read there, as before. -/
theorem member_put
    {subject : Value}
    (value : Value)
    (known : ∀ ref, subject = .object ref → ref.index < store.objects.size)
    (allowed : store.place subject key = .ok place) :
    let later := store.put value place
    (∀ ref, subject = .object ref → later.member subject key = .ok value) ∧
      ∀ ref, subject = .array ref →
        ∃ number index, indexNumber key = .ok number ∧ Number.index? number = some index ∧
          index < (store.array ref).size ∧ (later.array ref)[index]? = some value ∧
          (later.member subject key = .ok value ∨
            later.member subject key = store.member subject key) ∧
          (index < 2 ^ 53 →
            (key.IsCount → later.member subject key = .ok value) ∧
            (¬ key.IsCount → later.member subject key = .ok .undefined ∧
              store.member subject key = .ok .undefined)) := by
  refine ⟨?_, ?_⟩
  · rintro ref rfl
    exact member_put_property (known ref rfl) allowed
  · rintro ref rfl
    obtain ⟨number, index, counts, found, inside, rfl⟩ := place_array_iff.1 allowed
    have written : ((store.put value (.item ref index)).array ref)[index]? = some value := by
      rw [getElem?_put inside, if_pos rfl]
    exact ⟨number, index, counts, found, inside, written, member_put_item counts found inside⟩

/-- A fraction, and texts with a point, an exponent and a minus sign: each of them is the key of an
item that is written, and of nothing that is read. -/
theorem member_put_of_fraction :
    let store : Store := { Store.empty with arrays := #[#[.number 1, .number 2]] }
    ∀ key ∈ [Value.number 1.5, .string "1.0", .string "1e0", .string "-0"],
      ∃ place, store.place (.array ⟨0⟩) key = .ok place ∧
        (store.put (.number 9) place).member (.array ⟨0⟩) key = .ok .undefined := by
  intro store
  have places : ∀ {key : Value} (number : Float) (index : Nat), indexNumber key = .ok number →
      Number.index? number = some index → index < 2 →
      store.place (.array ⟨0⟩) key = .ok (.item ⟨0⟩ index) :=
    fun number index counts found inside =>
      place_array_iff.2 ⟨number, index, counts, found, inside, rfl⟩
  simp only [List.forall_mem_cons]
  exact ⟨⟨_, places 1.5 1 rfl (by decide +kernel) (by decide), rfl⟩,
    ⟨_, places 1 1 rfl (by decide +kernel) (by decide), rfl⟩,
    ⟨_, places 1 1 rfl (by decide +kernel) (by decide), rfl⟩,
    ⟨_, places (-0) 0 rfl (by decide +kernel) (by decide), rfl⟩, List.forall_mem_nil _⟩

/-- An array that is written under the text of an index, and an object under a number. -/
theorem member_put_of_pair :
    let store : Store :=
      { Store.empty with arrays := #[#[.number 1, .number 2]], objects := #[.empty] }
    (store.put .null (.item ⟨0⟩ 1)).member (.array ⟨0⟩) (.string "+01") = .ok .null ∧
      (store.put .null (.property ⟨0⟩ "1.5")).member (.object ⟨0⟩) (.number 1.5) = .ok .null := by
  intro store
  have inArray : store.place (.array ⟨0⟩) (.string "+01") = .ok (.item ⟨0⟩ 1) := by rfl
  have inObject : store.place (.object ⟨0⟩) (.number 1.5) = .ok (.property ⟨0⟩ "1.5") := by rfl
  have isCount : (Value.string "+01").IsCount :=
    ⟨['0', '1'], .inr rfl, by decide, by simp⟩
  constructor
  · obtain ⟨_, index, -, -, inside, -, -, reads⟩ :=
      (member_put .null (fun _ other => Value.noConfusion other) inArray).2 ⟨0⟩ rfl
    have small : index < 2 ^ 53 := Nat.lt_trans inside (by decide)
    exact (reads small).1 isCount
  · exact (member_put .null (fun ref same => by cases same; decide) inObject).1 ⟨0⟩ rfl

end Store
end TinyScript
