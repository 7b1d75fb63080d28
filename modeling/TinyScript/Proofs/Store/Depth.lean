import Mathlib.Data.Finset.Card
import Mathlib.Data.Nat.Find
import TinyScript.Value.Text

/-!
# The texts of values and their depth

The text of an array or object is put together from those of the values that it is made up of.
The depth at which a store leaves nested values out of a text is one that no value has whose parts
are all known and that does not contain itself (`NestsUpTo.upTo_depthLimit`), so the text of such a
value is complete.
-/

namespace TinyScript
namespace Store

/-! ## Quoted texts -/

variable {store : Store} {value : Value} {depth more : Nat}

/-- Inside other values, texts are shown in quotes. -/
theorem toList_render_string
    {text : String} :
    (store.renderUpTo depth true (.string text)).toList = '\'' :: (text.toList ++ ['\'']) := by
  simp only [renderUpTo, if_true, String.toList_append]
  rfl

/-- An array is shown as its items in brackets, with commas between them. -/
theorem toList_render_array
    {ref : ArrayRef} :
    (store.renderUpTo (depth + 1) true (.array ref)).toList =
      '[' :: ([',', ' '].intercalate ((store.array ref).toList.map fun item =>
        (store.renderUpTo depth true item).toList) ++ [']']) := by
  simp only [renderUpTo, String.toList_append, String.toList_intercalate, List.map_map]
  rfl

/-- The text of a property: its key, a colon and its value. -/
def propertyText (store : Store) (depth : Nat) (entry : String × Value) : List Char :=
  entry.1.toList ++ ':' :: ' ' :: (store.renderUpTo depth true entry.2).toList

/-- An object is shown as its properties in braces, with commas between them. -/
theorem toList_render_object
    {ref : ObjectRef} :
    (store.renderUpTo (depth + 1) true (.object ref)).toList =
      '\x7b' :: ([',', ' '].intercalate ((store.object ref).entries.map
        (store.propertyText depth)) ++ ['\x7d']) := by
  have property : (String.toList ∘ fun (entry : String × Value) =>
      entry.1 ++ ": " ++ store.renderUpTo depth true entry.2) = store.propertyText depth := by
    funext entry
    rw [Function.comp_apply, String.toList_append, String.toList_append, List.append_assoc]
    rfl
  simp only [renderUpTo, String.toList_append, String.toList_intercalate, List.map_map]
  rw [property]
  rfl

/-! ## Values of a depth -/

/-- The values that a value is made up of. -/
def parts (store : Store) : Value → List Value
  | .array ref => (store.array ref).toList
  | .object ref => (store.object ref).values
  | _ => []

namespace NestsUpTo

/-- The parts of a value are less deep than the value. -/
theorem parts
    (nested : store.NestsUpTo (depth + 1) value) :
    ∀ part ∈ store.parts value, store.NestsUpTo depth part := by
  cases value with
  | array ref => exact nested.2
  | object ref => exact nested.2
  | _ => exact fun _ mem => absurd mem List.not_mem_nil

/-- How deep a value is nested depends on its parts. -/
theorem of_parts
    (nested : store.NestsUpTo depth value)
    (each : ∀ part ∈ store.parts value, store.NestsUpTo more part) :
    store.NestsUpTo (more + 1) value := by
  cases value with
  | array ref =>
    cases depth with
    | zero => exact nested.elim
    | succ depth => exact ⟨nested.1, each⟩
  | object ref =>
    cases depth with
    | zero => exact nested.elim
    | succ depth => exact ⟨nested.1, each⟩
  | _ => trivial

/-- A value that is nested no deeper than a number is nested no deeper than the next one. -/
theorem succ
    (nested : store.NestsUpTo depth value) :
    store.NestsUpTo (depth + 1) value := by
  induction depth generalizing value with
  | zero =>
    refine nested.of_parts fun part mem => ?_
    cases value with
    | array | object => exact nested.elim
    | _ => exact absurd mem List.not_mem_nil
  | succ depth ih => exact nested.of_parts fun part mem => ih (nested.parts part mem)

theorem mono
    (nested : store.NestsUpTo depth value)
    (le : depth ≤ more) :
    store.NestsUpTo more value := by
  induction le with
  | refl => exact nested
  | step _ ih => exact ih.succ

/-- The text of a value is complete at its depth. -/
theorem renderUpTo_eq
    (nested : store.NestsUpTo depth value)
    (le : depth ≤ more)
    (quoted : Bool) :
    store.renderUpTo more quoted value = store.renderUpTo depth quoted value := by
  induction depth generalizing value more quoted with
  | zero =>
    cases value with
    | array | object => exact nested.elim
    | _ => simp only [renderUpTo]
  | succ depth ih =>
    cases more with
    | zero => exact absurd le (Nat.not_succ_le_zero depth)
    | succ more =>
      have each : ∀ part ∈ store.parts value,
          store.renderUpTo more true part = store.renderUpTo depth true part :=
        fun part mem => ih (nested.parts part mem) (Nat.le_of_succ_le_succ le) true
      cases value with
      | array ref =>
        simp only [Store.parts] at each
        simp only [renderUpTo]
        rw [List.map_congr_left each]
      | object ref =>
        simp only [renderUpTo]
        rw [List.map_congr_left fun entry mem => ?_]
        rw [each entry.2 (List.mem_map_of_mem mem)]
      | _ => simp only [renderUpTo]

end NestsUpTo

/-! ## The depth of values is bounded -/

/-- The least depth of a value. -/
def HasDepth (store : Store) (depth : Nat) (value : Value) : Prop :=
  store.NestsUpTo depth value ∧ ∀ less < depth, ¬ store.NestsUpTo less value

/-- A value that is nested no deeper than some number has a depth. -/
theorem NestsUpTo.exists_hasDepth
    (nested : store.NestsUpTo depth value) :
    ∃ depth, store.HasDepth depth value := by
  classical
  have some : ∃ depth, store.NestsUpTo depth value := ⟨depth, nested⟩
  exact ⟨Nat.find some, Nat.find_spec some, fun _ less => Nat.find_min some less⟩

/-- A value has one depth at most. -/
theorem HasDepth.unique
    {other : Nat}
    (first : store.HasDepth depth value)
    (second : store.HasDepth other value) :
    depth = other := by
  refine Nat.le_antisymm (Nat.le_of_not_lt fun less => ?_) (Nat.le_of_not_lt fun less => ?_)
  · exact first.2 other less second.1
  · exact second.2 depth less first.1

/-- A part of a nested value has the next smaller depth. -/
theorem HasDepth.exists_part
    (nested : store.HasDepth (depth + 2) value) :
    ∃ part, store.HasDepth (depth + 1) part := by
  by_contra none
  refine nested.2 (depth + 1) (Nat.lt_succ_self _) (nested.1.of_parts fun part mem => ?_)
  by_contra deep
  exact none ⟨part, nested.1.parts part mem, fun less below shallow =>
    deep (shallow.mono (Nat.le_of_lt_succ below))⟩

/-- Every depth up to that of a value is the depth of some value. -/
theorem HasDepth.exists_of_le
    (nested : store.HasDepth (depth + 1) value)
    (le : more ≤ depth) :
    ∃ part, store.HasDepth (more + 1) part := by
  induction depth generalizing value with
  | zero =>
    obtain rfl := Nat.le_zero.1 le
    exact ⟨value, nested⟩
  | succ depth ih =>
    rcases Nat.le_succ_iff.1 le with below | rfl
    · obtain ⟨part, shallower⟩ := nested.exists_part
      exact ih shallower below
    · exact ⟨value, nested⟩

/-- The arrays and objects of a store in one row. -/
def slot (store : Store) : Value → Nat
  | .array ref => ref.index
  | .object ref => store.arrays.size + ref.index
  | _ => 0

/-- A value with parts is an array or an object of the store. -/
theorem HasDepth.known
    (nested : store.HasDepth (depth + 1) value) :
    (∃ ref : ArrayRef, value = .array ref ∧ ref.index < store.arrays.size) ∨
      ∃ ref : ObjectRef, value = .object ref ∧ ref.index < store.objects.size := by
  obtain ⟨nests, least⟩ := nested
  have flat := least 0 (Nat.succ_pos depth)
  cases value with
  | array ref => exact .inl ⟨ref, rfl, nests.1⟩
  | object ref => exact .inr ⟨ref, rfl, nests.1⟩
  | _ => exact absurd trivial flat

/-- There are no more slots than the limit for depths allows. -/
theorem HasDepth.slot_lt
    (nested : store.HasDepth (depth + 1) value) :
    store.slot value < store.depthLimit := by
  rcases nested.known with ⟨ref, rfl, known⟩ | ⟨ref, rfl, known⟩ <;>
    simp only [slot, depthLimit] <;> omega

/-- Values with parts that are kept in one slot are the same. -/
theorem HasDepth.eq_of_slot_eq
    {other : Nat}
    {second : Value}
    (nested : store.HasDepth (depth + 1) value)
    (otherNested : store.HasDepth (other + 1) second)
    (same : store.slot value = store.slot second) :
    value = second := by
  rcases nested.known with ⟨⟨i⟩, rfl, known⟩ | ⟨⟨i⟩, rfl, known⟩ <;>
    rcases otherNested.known with ⟨⟨j⟩, rfl, otherKnown⟩ | ⟨⟨j⟩, rfl, otherKnown⟩ <;>
    simp only [slot] at same known otherKnown
  · rw [same]
  · omega
  · omega
  · rw [Nat.add_left_cancel same]

/-- No value is nested deeper than a store has arrays and objects: those on the way down have
different depths, so none of them is met twice. -/
theorem HasDepth.le_depthLimit
    (nested : store.HasDepth depth value) :
    depth ≤ store.depthLimit := by
  classical
  cases depth with
  | zero => exact Nat.zero_le _
  | succ depth =>
    have each : ∀ smaller, ∃ part, smaller ≤ depth → store.HasDepth (smaller + 1) part := by
      intro smaller
      by_cases le : smaller ≤ depth
      · obtain ⟨part, has⟩ := nested.exists_of_le le
        exact ⟨part, fun _ => has⟩
      · exact ⟨.null, fun le' => absurd le' le⟩
    choose part has using each
    have counted :
        (Finset.range (depth + 1)).card ≤ (Finset.range store.depthLimit).card := by
      refine Finset.card_le_card_of_injOn (fun smaller => store.slot (part smaller)) ?_ ?_
      · intro smaller mem
        have le : smaller ≤ depth := Nat.le_of_lt_succ (Finset.mem_range.1 mem)
        exact Finset.mem_coe.2 (Finset.mem_range.2 (has smaller le).slot_lt)
      · intro first firstMem second secondMem same
        have firstHas := has first (Nat.le_of_lt_succ (Finset.mem_range.1 firstMem))
        have secondHas := has second (Nat.le_of_lt_succ (Finset.mem_range.1 secondMem))
        rw [firstHas.eq_of_slot_eq secondHas same] at firstHas
        exact Nat.succ.inj (firstHas.unique secondHas)
    simpa using counted

/-- The text of a value in a store leaves nothing out. -/
theorem NestsUpTo.upTo_depthLimit
    (nested : store.NestsUpTo depth value) :
    store.NestsUpTo store.depthLimit value := by
  obtain ⟨depth, least⟩ := nested.exists_hasDepth
  exact least.1.mono least.le_depthLimit

/-- A value that does not contain itself is shown to its end. -/
theorem NestsUpTo.textDepth_eq
    (nested : store.NestsUpTo depth value) :
    store.textDepth value = store.depthLimit :=
  if_pos nested.upTo_depthLimit

/-- The text of a value inside another one is the one that it has at any depth which it does not
exceed. -/
theorem NestsUpTo.renderUpTo_eq_repr
    (nested : store.NestsUpTo depth value) :
    store.renderUpTo depth true value = store.repr value := by
  rw [repr, nested.textDepth_eq,
    ← nested.renderUpTo_eq (Nat.le_max_left depth store.depthLimit),
    nested.upTo_depthLimit.renderUpTo_eq (Nat.le_max_right depth store.depthLimit)]

end Store
end TinyScript
