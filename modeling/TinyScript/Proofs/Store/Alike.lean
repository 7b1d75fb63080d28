import TinyScript.Proofs.Number.Integers
import TinyScript.Proofs.Store.Data

/-!
# Alike values of two stores

A value of one store and a value of another are alike if they are made up of the same contents in
the same order, whatever their references are.  What is alike is data at once or not at all, and
has the same text.
-/

namespace TinyScript
namespace Store

/-! ## Alike values -/

/-- Two values have the same type and equal contents; arrays and objects have alike contents in
the same order, objects under the same keys.  What the second value refers to is known. -/
inductive Alike (left right : Store) : Value → Value → Prop
  | null : Alike left right .null .null
  | undefined : Alike left right .undefined .undefined
  | bool (value : Bool) : Alike left right (.bool value) (.bool value)
  | number {a b : Float} : (a == b) = true → Alike left right (.number a) (.number b)
  | string (text : String) : Alike left right (.string text) (.string text)
  | array {a b : ArrayRef} :
      b.index < right.arrays.size →
      (left.array a).toList.length = (right.array b).toList.length →
      (∀ item ∈ (left.array a).toList.zip (right.array b).toList,
        Alike left right item.1 item.2) →
      Alike left right (.array a) (.array b)
  | object {a b : ObjectRef} :
      b.index < right.objects.size →
      (left.object a).keys = (right.object b).keys →
      (∀ value ∈ (left.object a).values.zip (right.object b).values,
        Alike left right value.1 value.2) →
      Alike left right (.object a) (.object b)

variable {left right later : Store} {a b : Value} {depth : Nat}

/-- Two lists have the same images when their items have, taken in pairs. -/
theorem map_eq_map_of_zip
    {α : Type}
    {xs ys : List Value}
    {f g : Value → α}
    (length : xs.length = ys.length)
    (same : ∀ pair ∈ xs.zip ys, f pair.1 = g pair.2) :
    xs.map f = ys.map g := by
  calc
    xs.map f = (xs.zip ys).map (f ∘ Prod.fst) := by
      rw [← List.map_map, List.map_fst_zip length.le]
    _ = (xs.zip ys).map (g ∘ Prod.snd) := List.map_congr_left same
    _ = ys.map g := by rw [← List.map_map, List.map_snd_zip length.ge]

/-- Every item of the second list has a partner in the first one. -/
theorem exists_mem_zip
    {xs ys : List Value}
    (length : xs.length = ys.length)
    {y : Value}
    (mem : y ∈ ys) :
    ∃ x ∈ xs, (x, y) ∈ xs.zip ys := by
  rw [← List.map_snd_zip length.ge] at mem
  obtain ⟨⟨x, _⟩, pair, rfl⟩ := List.mem_map.1 mem
  exact ⟨x, (List.of_mem_zip pair).1, pair⟩

/-- Tables with the same keys have as many values. -/
theorem length_values_eq
    {xs ys : Table Value}
    (keys : xs.keys = ys.keys) :
    xs.values.length = ys.values.length := by
  simpa [Table.keys, Table.values] using congrArg List.length keys

/-- The texts of the entries of a table are those of its keys with those of its values. -/
theorem map_entries_eq_zipWith
    (table : Table Value)
    (text : Value → String) :
    (table.entries.map fun (key, value) => key ++ ": " ++ text value) =
      List.zipWith (fun key text => key ++ ": " ++ text) table.keys (table.values.map text) := by
  simp [Table.keys, Table.values, List.zipWith_map]

/-- Alike values have the same text. -/
theorem Alike.renderUpTo_eq
    (alike : Alike left right a b)
    (depth : Nat)
    (quoted : Bool) :
    left.renderUpTo depth quoted a = right.renderUpTo depth quoted b := by
  induction alike generalizing depth quoted with
  | null | undefined | bool | string => simp only [renderUpTo]
  | number same =>
    simp only [renderUpTo]
    exact Number.display_eq_of_beq same
  | array known length _ ih =>
    cases depth with
    | zero => simp only [renderUpTo]
    | succ depth =>
      simp only [renderUpTo]
      rw [map_eq_map_of_zip length fun pair mem => ih pair mem depth true]
  | object known keys _ ih =>
    cases depth with
    | zero => simp only [renderUpTo]
    | succ depth =>
      simp only [renderUpTo, map_entries_eq_zipWith]
      rw [keys, map_eq_map_of_zip (length_values_eq keys) fun pair mem => ih pair mem depth true]

/-- What is like data is data. -/
theorem Alike.isDataUpTo
    (alike : Alike left right a b)
    (data : left.IsDataUpTo depth a) :
    right.IsDataUpTo depth b := by
  induction alike generalizing depth with
  | null | undefined | bool => simp only [IsDataUpTo]
  | number same =>
    obtain ⟨n, small, equal⟩ := isDataUpTo_number.1 data
    exact isDataUpTo_number.2 ⟨n, small, BEq.trans (BEq.symm same) equal⟩
  | string => exact isDataUpTo_string.2 (isDataUpTo_string.1 data)
  | array known length _ ih =>
    cases depth with
    | zero => exact data.elim
    | succ depth =>
      refine ⟨known, fun item mem => ?_⟩
      obtain ⟨origin, originMem, pair⟩ := exists_mem_zip length mem
      exact ih _ pair (data.2 origin originMem)
  | object known keys _ ih =>
    cases depth with
    | zero => exact data.elim
    | succ depth =>
      refine ⟨known, keys ▸ data.2.1, keys ▸ data.2.2.1, fun value mem => ?_⟩
      obtain ⟨origin, originMem, pair⟩ := exists_mem_zip (length_values_eq keys) mem
      exact ih _ pair (data.2.2.2 origin originMem)

/-- Alike values that do not contain themselves have the same text, each in its own store. -/
theorem Alike.repr_eq_of_nestsUpTo
    (alike : Alike left right a b)
    (nested : left.NestsUpTo depth a)
    (otherNested : right.NestsUpTo depth b) :
    left.repr a = right.repr b := by
  rw [← nested.renderUpTo_eq_repr, alike.renderUpTo_eq, otherNested.renderUpTo_eq_repr]

/-- Alike data have the same text, each in its own store. -/
theorem Alike.repr_eq
    (alike : Alike left right a b)
    (data : left.IsData a) :
    left.repr a = right.repr b := by
  have limited := data.upTo_depthLimit
  exact alike.repr_eq_of_nestsUpTo limited.nestsUpTo (alike.isDataUpTo limited).nestsUpTo

/-! ## Stores that arrays and objects are added to -/

/-- A store has the scopes of another one, and its arrays and objects at the same places. -/
structure Includes (later store : Store) : Prop where
  scopes : later.scopes = store.scopes
  arrays : store.arrays.size ≤ later.arrays.size
  objects : store.objects.size ≤ later.objects.size
  array : ∀ ref : ArrayRef, ref.index < store.arrays.size → later.array ref = store.array ref
  object : ∀ ref : ObjectRef, ref.index < store.objects.size → later.object ref = store.object ref

variable {store : Store}

theorem Includes.refl
    (store : Store) :
    store.Includes store where
  scopes := rfl
  arrays := Nat.le_refl _
  objects := Nat.le_refl _
  array _ _ := rfl
  object _ _ := rfl

/-- What includes a store that includes another one includes that as well. -/
theorem Includes.trans
    {latest : Store}
    (second : latest.Includes later)
    (first : later.Includes store) :
    latest.Includes store where
  scopes := second.scopes.trans first.scopes
  arrays := Nat.le_trans first.arrays second.arrays
  objects := Nat.le_trans first.objects second.objects
  array ref known :=
    (second.array ref (Nat.lt_of_lt_of_le known first.arrays)).trans (first.array ref known)
  object ref known :=
    (second.object ref (Nat.lt_of_lt_of_le known first.objects)).trans (first.object ref known)

/-- A new array leaves those that are there as they are. -/
theorem includes_newArray
    (store : Store)
    (items : Array Value) :
    (store.newArray items).2.Includes store where
  scopes := rfl
  arrays := by simp [newArray]
  objects := Nat.le_refl _
  array _ known := array_newArray_of_lt known items
  object _ _ := rfl

/-- A new object leaves those that are there as they are. -/
theorem includes_newObject
    (store : Store)
    (properties : Table Value) :
    (store.newObject properties).2.Includes store where
  scopes := rfl
  arrays := Nat.le_refl _
  objects := by simp [newObject]
  array _ _ := rfl
  object _ known := object_newObject_of_lt known properties

/-- Names have the same values as before. -/
theorem Includes.lookup_eq
    (grown : later.Includes store)
    (scope : ScopeRef)
    (name : String) :
    later.lookup scope name = store.lookup scope name := by
  simp only [lookup, lookup?, chain, binding?, Store.scope, grown.scopes]

/-- What is alike stays so. -/
theorem Alike.grow
    (alike : Alike left right a b)
    (grown : later.Includes right) :
    Alike left later a b := by
  induction alike with
  | null => exact .null
  | undefined => exact .undefined
  | bool value => exact .bool value
  | number same => exact .number same
  | string text => exact .string text
  | array known length _ ih =>
    rw [← grown.array _ known] at length ih
    exact .array (Nat.lt_of_lt_of_le known grown.arrays) length ih
  | object known keys _ ih =>
    rw [← grown.object _ known] at keys ih
    exact .object (Nat.lt_of_lt_of_le known grown.objects) keys ih

end Store
end TinyScript
