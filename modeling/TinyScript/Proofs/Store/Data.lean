import TinyScript.Proofs.Grammar.Printer
import TinyScript.Proofs.Store.Depth

/-!
# Data

Data are the values that are built up, to some depth, from null, undefined, truth values, small
integers, texts without quotes, backslashes and opening braces, arrays that the store knows, and
objects that it knows, whose keys are names and differ.  The depth at which a store leaves nested
values out of a text is one that its data never reach (`IsData.upTo_depthLimit`), so a text of data
is complete.
-/

namespace TinyScript
namespace Store

/-! ## Data of a depth -/

/-- A value is data, with arrays and objects nested at most so deep. -/
def IsDataUpTo (store : Store) : (depth : Nat) → Value → Prop
  | _, .null | _, .undefined | _, .bool _ => True
  | _, .number value =>
    ∃ n : Int, n.natAbs < Number.integerLimit ∧ (value == Float.ofInt n) = true
  | _, .string text => ∀ c ∈ text.toList, c ≠ '\'' ∧ c ≠ '\\' ∧ c ≠ '\x7b'
  | depth + 1, .array ref =>
    ref.index < store.arrays.size ∧
      ∀ item ∈ (store.array ref).toList, store.IsDataUpTo depth item
  | depth + 1, .object ref =>
    ref.index < store.objects.size ∧
      (∀ key ∈ (store.object ref).keys, IsName key) ∧ (store.object ref).keys.Nodup ∧
      ∀ value ∈ (store.object ref).values, store.IsDataUpTo depth value
  | _, _ => False

/-- A value is data. -/
def IsData (store : Store) (value : Value) : Prop :=
  ∃ depth, store.IsDataUpTo depth value

variable {store : Store} {value : Value} {depth more : Nat}

/-- Numbers are data when they are whole and small enough to be written out in digits. -/
theorem isDataUpTo_number
    {x : Float} :
    store.IsDataUpTo depth (.number x) ↔
      ∃ n : Int, n.natAbs < Number.integerLimit ∧ (x == Float.ofInt n) = true := by
  simp only [IsDataUpTo]

/-- Texts are data when no character of them would end the literal, escape another one or open a
placeholder. -/
theorem isDataUpTo_string
    {text : String} :
    store.IsDataUpTo depth (.string text) ↔
      ∀ c ∈ text.toList, c ≠ '\'' ∧ c ≠ '\\' ∧ c ≠ '\x7b' := by
  simp only [IsDataUpTo]

/-- The parts of data are data, and less deep. -/
theorem IsDataUpTo.parts
    (data : store.IsDataUpTo (depth + 1) value) :
    ∀ part ∈ store.parts value, store.IsDataUpTo depth part := by
  cases value with
  | array ref => exact data.2
  | object ref => exact data.2.2.2
  | _ => exact fun _ mem => absurd mem List.not_mem_nil

/-- Whether data are of a depth depends on their parts. -/
theorem IsDataUpTo.of_parts
    (data : store.IsDataUpTo depth value)
    (each : ∀ part ∈ store.parts value, store.IsDataUpTo more part) :
    store.IsDataUpTo (more + 1) value := by
  cases value with
  | array ref =>
    cases depth with
    | zero => exact data.elim
    | succ depth => exact ⟨data.1, each⟩
  | object ref =>
    cases depth with
    | zero => exact data.elim
    | succ depth => exact ⟨data.1, data.2.1, data.2.2.1, each⟩
  | number => exact isDataUpTo_number.2 (isDataUpTo_number.1 data)
  | string => exact isDataUpTo_string.2 (isDataUpTo_string.1 data)
  | null | undefined | bool => trivial
  | _ => cases depth <;> exact data.elim

/-- Data is not nested deeper than it says. -/
theorem IsDataUpTo.nestsUpTo
    (data : store.IsDataUpTo depth value) :
    store.NestsUpTo depth value := by
  induction depth generalizing value with
  | zero =>
    cases value with
    | array | object => exact data.elim
    | _ => trivial
  | succ depth ih =>
    cases value with
    | array ref => exact ⟨data.1, fun item mem => ih (data.2 item mem)⟩
    | object ref => exact ⟨data.1, fun value mem => ih (data.2.2.2 value mem)⟩
    | _ => trivial

/-- Data are data of any depth up to which they are nested. -/
theorem IsDataUpTo.of_nestsUpTo
    (data : store.IsDataUpTo depth value)
    (nested : store.NestsUpTo more value) :
    store.IsDataUpTo more value := by
  induction more generalizing depth value with
  | zero =>
    cases value with
    | array | object => exact nested.elim
    | number => exact isDataUpTo_number.2 (isDataUpTo_number.1 data)
    | string => exact isDataUpTo_string.2 (isDataUpTo_string.1 data)
    | null | undefined | bool => trivial
    | _ => cases depth <;> exact data.elim
  | succ more ih =>
    refine data.of_parts fun part mem => ?_
    cases depth with
    | zero =>
      cases value with
      | array | object => exact data.elim
      | _ => exact absurd mem List.not_mem_nil
    | succ depth => exact ih (data.parts part mem) (nested.parts part mem)

/-- The text of data in a store leaves nothing out. -/
theorem IsData.upTo_depthLimit
    (data : store.IsData value) :
    store.IsDataUpTo store.depthLimit value := by
  obtain ⟨depth, data⟩ := data
  exact data.of_nestsUpTo data.nestsUpTo.upTo_depthLimit

end Store
end TinyScript
