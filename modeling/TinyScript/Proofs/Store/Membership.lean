import TinyScript.Library.Methods
import TinyScript.Proofs.Number.Denoting
import TinyScript.Proofs.Store.Alike
import TinyScript.Proofs.Text.Separators

/-!
# Membership

An array includes a value if one of its items has the same type and the same text.  What is alike
has the same text.  The other way round, a text determines the value as far as the ends of strings
and keys inside it can be seen (`determines`, `alike_of_sameText`).
-/

namespace TinyScript
namespace Store

open Text

/-! ## Plain and legible values -/

/-- A condition holds of a value and of everything that it is made up of, to some depth. -/
inductive Each (store : Store) (condition : Value → Prop) : Value → Prop
  | of_parts {value : Value} :
      condition value →
      (∀ part ∈ store.parts value, Each store condition part) →
      Each store condition value

/-- A value is neither a function nor the absence of a result nor the number that is none, and what
it refers to is known. -/
def IsPlain (store : Store) : Value → Prop
  | .null | .undefined | .bool _ | .string _ => True
  | .number x => x.isNaN = false
  | .array ref => ref.index < store.arrays.size
  | .object ref => ref.index < store.objects.size
  | _ => False

/-- The characters that follow a part of a quoted text. -/
def delimiters : List Char :=
  [',', ']', '\x7d']

/-- The ends of the keys of an object can be seen, and that it has keys at all. -/
def HasLegibleKeys (store : Store) : Value → Prop
  | .object ref =>
    (∀ key ∈ (store.object ref).keys, Avoids ':' [' '] key.toList) ∧
      ∀ key ∈ (store.object ref).keys.head?, key.toList.head? ≠ some '\x7d'
  | _ => True

/-- The end of a string, and those of the keys of an object, can be seen inside another value. -/
def IsLegible (store : Store) : Value → Prop
  | .string text => Avoids '\'' delimiters text.toList
  | value => store.HasLegibleKeys value

variable {store : Store} {a b value : Value} {depth : Nat}

namespace Each

variable {condition other : Value → Prop}

/-- What holds in every part of a value holds of the value. -/
theorem here
    (each : store.Each condition value) :
    condition value := by
  cases each with
  | of_parts holds _ => exact holds

/-- What holds in every part of a value does so in every part of its parts. -/
theorem parts
    (each : store.Each condition value) :
    ∀ part ∈ store.parts value, store.Each condition part := by
  cases each with
  | of_parts _ parts => exact parts

/-- Two conditions that hold in every part hold together there. -/
theorem and
    (first : store.Each condition value)
    (second : store.Each other value) :
    store.Each (fun value => condition value ∧ other value) value := by
  induction first with
  | of_parts holds _ ih =>
    exact .of_parts ⟨holds, second.here⟩ fun part mem => ih part mem (second.parts part mem)

end Each

/-- Some depth is enough for all of some values. -/
theorem exists_nestsUpTo_all
    {values : List Value}
    (each : ∀ value ∈ values, ∃ depth, store.NestsUpTo depth value) :
    ∃ depth, ∀ value ∈ values, store.NestsUpTo depth value := by
  induction values with
  | nil => exact ⟨0, List.forall_mem_nil _⟩
  | cons first others ih =>
    rw [List.forall_mem_cons] at each
    obtain ⟨depth, nested⟩ := each.1
    obtain ⟨more, all⟩ := ih each.2
    refine ⟨max depth more, List.forall_mem_cons.2 ⟨nested.mono (Nat.le_max_left _ _), ?_⟩⟩
    exact fun value mem => (all value mem).mono (Nat.le_max_right _ _)

/-- Plain values are nested to some depth. -/
theorem Each.exists_nestsUpTo
    (plain : store.Each store.IsPlain value) :
    ∃ depth, store.NestsUpTo depth value := by
  induction plain with
  | of_parts holds _ ih =>
    rename_i value parts
    obtain ⟨depth, all⟩ := exists_nestsUpTo_all ih
    refine ⟨depth + 1, ?_⟩
    cases value with
    | array ref => exact ⟨holds, all⟩
    | object ref => exact ⟨holds, all⟩
    | _ => trivial

/-! ## First characters -/

/-- The type that the first character of a quoted text says. -/
def leadTag : Char → TypeTag
  | 'n' => .null
  | 'u' => .undefined
  | 't' | 'f' => .boolean
  | '\'' => .string
  | '[' => .array
  | '\x7b' => .object
  | _ => .number

/-- The text of a number can be told from other texts by its first character. -/
theorem leadTag_of_number
    {c : Char}
    (begins : c.isDigit = true ∨ c = '-' ∨ c = 'I') :
    leadTag c = .number ∧ c ∉ delimiters := by
  rcases begins with digit | rfl | rfl
  · constructor
    · unfold leadTag
      split <;> first | rfl | cases digit
    · intro mem
      simp only [delimiters, List.mem_cons, List.not_mem_nil, or_false] at mem
      rcases mem with rfl | rfl | rfl <;> cases digit
  · exact ⟨rfl, by decide⟩
  · exact ⟨rfl, by decide⟩

/-- The text of a plain value says its type. -/
theorem exists_lead
    (plain : store.IsPlain value)
    (depth : Nat) :
    ∃ c rest, (store.renderUpTo depth true value).toList = c :: rest ∧
      leadTag c = value.typeTag ∧ c ∉ delimiters := by
  cases value with
  | null => exact ⟨'n', _, by simp only [renderUpTo]; rfl, rfl, by decide⟩
  | undefined => exact ⟨'u', _, by simp only [renderUpTo]; rfl, rfl, by decide⟩
  | bool flag =>
    simp only [renderUpTo]
    cases flag with
    | true => exact ⟨'t', _, rfl, rfl, by decide⟩
    | false => exact ⟨'f', _, rfl, rfl, by decide⟩
  | number x =>
    obtain ⟨c, rest, text, begins, -⟩ := Number.exists_cons_display plain
    simp only [renderUpTo]
    exact ⟨c, rest, text, leadTag_of_number begins⟩
  | string text => exact ⟨'\'', _, toList_render_string, rfl, by decide⟩
  | array ref =>
    cases depth with
    | zero => exact ⟨'[', _, by simp only [renderUpTo]; rfl, rfl, by decide⟩
    | succ depth => exact ⟨'[', _, toList_render_array, rfl, by decide⟩
  | object ref =>
    cases depth with
    | zero => exact ⟨'\x7b', _, by simp only [renderUpTo]; rfl, rfl, by decide⟩
    | succ depth => exact ⟨'\x7b', _, toList_render_object, rfl, by decide⟩
  | _ => exact plain.elim

/-- Values whose texts begin alike are of one type. -/
theorem typeTag_eq_of_render_append
    {rest more : List Char}
    (plain : store.IsPlain a)
    (otherPlain : store.IsPlain b)
    (same : (store.renderUpTo depth true a).toList ++ rest =
      (store.renderUpTo depth true b).toList ++ more) :
    a.typeTag = b.typeTag := by
  obtain ⟨c, _, text, tag, -⟩ := exists_lead plain depth
  obtain ⟨d, _, otherText, otherTag, -⟩ := exists_lead otherPlain depth
  rw [text, otherText] at same
  rw [← tag, ← otherTag, (List.cons.inj same).1]

/-! ## Values that have no parts -/

/-- The text of a number, and of a word, contains nothing that can follow it. -/
theorem notMem_delimiters_of_render
    (plain : store.IsPlain value)
    (bare : value.typeTag ∉ [.string, .array, .object]) :
    ∀ c ∈ (store.renderUpTo depth true value).toList, c ∉ delimiters := by
  cases value with
  | null => simp [renderUpTo, delimiters]
  | undefined => simp [renderUpTo, delimiters]
  | bool flag => cases flag <;> simp [renderUpTo, delimiters]
  | number x =>
    obtain ⟨first, rest, text, begins, each⟩ := Number.exists_cons_display plain
    simp only [renderUpTo, text, List.forall_mem_cons]
    refine ⟨(leadTag_of_number begins).2, fun c mem inside => ?_⟩
    have shape := each c mem
    simp only [delimiters, List.mem_cons, List.not_mem_nil, or_false] at inside
    rcases inside with rfl | rfl | rfl <;> exact absurd shape (by simp)
  | string | array | object => exact absurd bare (by simp [Value.typeTag])
  | _ => exact plain.elim

/-- Values without quotes and parts are determined by their texts. -/
theorem alike_of_render_eq
    (plain : store.IsPlain a)
    (otherPlain : store.IsPlain b)
    (bare : a.typeTag ∉ [.string, .array, .object])
    (tags : a.typeTag = b.typeTag)
    (same : store.renderUpTo depth true a = store.renderUpTo depth true b) :
    Alike store store a b := by
  cases a with
  | null =>
    cases b with
    | null => exact .null
    | _ => cases tags
  | undefined =>
    cases b with
    | undefined => exact .undefined
    | _ => cases tags
  | bool flag =>
    cases b with
    | bool other =>
      simp only [renderUpTo] at same
      cases flag <;> cases other <;> first | exact .bool _ | exact absurd same (by decide)
    | _ => cases tags
  | number x =>
    cases b with
    | number y =>
      simp only [renderUpTo] at same
      exact .number (Number.beq_of_display_eq plain otherPlain same)
    | _ => cases tags
  | string | array | object => exact absurd bare (by simp [Value.typeTag])
  | _ => exact plain.elim

/-! ## Values inside others -/

/-- A value inside another one is plain, and its end can be seen. -/
def IsClear (store : Store) (value : Value) : Prop :=
  store.IsPlain value ∧ store.IsLegible value

/-- Arrays are alike if their items are. -/
theorem alike_array_of_forall₂
    {ref other : ArrayRef}
    (known : other.index < store.arrays.size)
    (items : List.Forall₂ (Alike store store) (store.array ref).toList
      (store.array other).toList) :
    Alike store store (.array ref) (.array other) := by
  obtain ⟨length, each⟩ := List.forall₂_iff_zip.1 items
  exact .array known length fun item mem => each mem

/-- Properties have the same key and alike values. -/
def AlikeProperty (store : Store) (first second : String × Value) : Prop :=
  first.1 = second.1 ∧ Alike store store first.2 second.2

/-- Objects are alike if they have the same keys with values that are. -/
theorem alike_object_of_forall₂
    {ref other : ObjectRef}
    (known : other.index < store.objects.size)
    (entries : List.Forall₂ store.AlikeProperty (store.object ref).entries
      (store.object other).entries) :
    Alike store store (.object ref) (.object other) := by
  have keys : (store.object ref).keys = (store.object other).keys := by
    refine List.forall₂_eq_eq_eq ▸ ?_
    exact List.forall₂_map_left_iff.2 (List.forall₂_map_right_iff.2
      (entries.imp fun _ _ alike => alike.1))
  have values : List.Forall₂ (Alike store store) (store.object ref).values
      (store.object other).values :=
    List.forall₂_map_left_iff.2 (List.forall₂_map_right_iff.2
      (entries.imp fun _ _ alike => alike.2))
  exact .object known keys fun value mem => (List.forall₂_iff_zip.1 values).2 mem

/-- The first property of an object does not begin like the end of one. -/
theorem propertyText_ne_of_head?
    {ref : ObjectRef}
    (legible : store.HasLegibleKeys (.object ref)) :
    ∀ entry ∈ (store.object ref).entries.head?, ∀ text behind,
      store.propertyText depth entry ++ text ≠ '\x7d' :: behind := by
  intro entry first text behind same
  have inKeys : entry.1 ∈ (store.object ref).keys.head? := by
    rw [Table.keys, List.head?_map, first]
    rfl
  have begins := legible.2 entry.1 inKeys
  rw [propertyText] at same
  cases key : entry.1.toList with
  | nil =>
    rw [key] at same
    cases same
  | cons c others =>
    rw [key] at same begins
    exact begins (congrArg some (List.cons.inj same).1)

/-- The text of an item does not begin like the end of an array. -/
theorem render_ne_bracket
    {values : List Value}
    (plain : ∀ value ∈ values, store.IsPlain value) :
    ∀ value ∈ values.head?, ∀ text behind,
      (store.renderUpTo depth true value).toList ++ text ≠ ']' :: behind := by
  intro value first text behind same
  obtain ⟨c, rest, begins, -, noEnd⟩ :=
    exists_lead (plain value (List.mem_of_mem_head? first)) depth
  rw [begins] at same
  cases same
  exact noEnd (by decide)

/-- Two values are alike if their texts agree inside others, and what follows them agrees, too. -/
def Determines (store : Store) (depth : Nat) (a b : Value) : Prop :=
  ∀ rest more, BeginsIn delimiters rest → BeginsIn delimiters more →
    (store.renderUpTo depth true a).toList ++ rest =
      (store.renderUpTo depth true b).toList ++ more →
    Alike store store a b ∧ rest = more

/-- A value that is neither a text nor an array or object is determined by its text. -/
theorem determines_of_bare
    (plain : store.IsPlain a)
    (otherPlain : store.IsPlain b)
    (tags : a.typeTag = b.typeTag)
    (bare : a.typeTag ∉ [.string, .array, .object]) :
    store.Determines depth a b := by
  intro rest more restBegins moreBegins same
  obtain ⟨texts, behind⟩ := append_inj_of_bare (notMem_delimiters_of_render plain bare)
    (notMem_delimiters_of_render otherPlain (tags ▸ bare)) restBegins moreBegins same
  exact ⟨alike_of_render_eq plain otherPlain bare tags (String.toList_inj.1 texts), behind⟩

/-- A text in quotes is determined by what stands between the quotes. -/
theorem determines_string
    {text other : String}
    (legible : Avoids '\'' delimiters text.toList)
    (otherLegible : Avoids '\'' delimiters other.toList) :
    store.Determines depth (.string text) (.string other) := by
  intro rest more restBegins moreBegins same
  rw [toList_render_string, toList_render_string, List.cons_append, List.cons_append,
    List.append_assoc, List.append_assoc] at same
  obtain ⟨texts, behind⟩ := append_inj_of_mark (by decide) legible otherLegible restBegins
    moreBegins (List.cons.inj same).2
  rw [String.toList_inj.1 texts]
  exact ⟨.string other, behind⟩

/-- An array is determined by its text if its items are by theirs. -/
theorem determines_array
    {ref other : ArrayRef}
    (known : other.index < store.arrays.size)
    (plain : ∀ item ∈ (store.array ref).toList, store.IsPlain item)
    (otherPlain : ∀ item ∈ (store.array other).toList, store.IsPlain item)
    (each : ∀ a ∈ (store.array ref).toList, ∀ b ∈ (store.array other).toList,
      store.Determines depth a b) :
    store.Determines (depth + 1) (.array ref) (.array other) := by
  intro rest more _ _ same
  rw [toList_render_array, toList_render_array, List.cons_append, List.cons_append,
    List.append_assoc, List.append_assoc] at same
  obtain ⟨items, behind⟩ := forall₂_of_intercalate (by decide) (by decide) (by decide)
    (render_ne_bracket plain) (render_ne_bracket otherPlain) each (List.cons.inj same).2
  exact ⟨alike_array_of_forall₂ known items, behind⟩

/-- The key of a property is seen to end at the colon, and its value where that does. -/
theorem alikeProperty_of_append
    {first second : String × Value}
    {rest more : List Char}
    (legible : Avoids ':' [' '] first.1.toList)
    (otherLegible : Avoids ':' [' '] second.1.toList)
    (values : store.Determines depth first.2 second.2)
    (restBegins : BeginsIn delimiters rest)
    (moreBegins : BeginsIn delimiters more)
    (same : store.propertyText depth first ++ rest = store.propertyText depth second ++ more) :
    store.AlikeProperty first second ∧ rest = more := by
  have blank : ∀ text, BeginsIn [' '] (' ' :: text) :=
    fun _ => beginsIn_cons.2 (List.mem_singleton_self ' ')
  rw [propertyText, propertyText, List.append_assoc, List.append_assoc] at same
  obtain ⟨keys, texts⟩ :=
    append_inj_of_mark (by decide) legible otherLegible (blank _) (blank _) same
  obtain ⟨alike, behind⟩ := values rest more restBegins moreBegins (List.cons.inj texts).2
  exact ⟨⟨String.toList_inj.1 keys, alike⟩, behind⟩

/-- An object is determined by its text if its keys can be read and its values are determined by
their texts. -/
theorem determines_object
    {ref other : ObjectRef}
    (known : other.index < store.objects.size)
    (legible : store.HasLegibleKeys (.object ref))
    (otherLegible : store.HasLegibleKeys (.object other))
    (each : ∀ a ∈ (store.object ref).values, ∀ b ∈ (store.object other).values,
      store.Determines depth a b) :
    store.Determines (depth + 1) (.object ref) (.object other) := by
  intro rest more _ _ same
  rw [toList_render_object, toList_render_object, List.cons_append, List.cons_append,
    List.append_assoc, List.append_assoc] at same
  have properties : ∀ first ∈ (store.object ref).entries,
      ∀ second ∈ (store.object other).entries, ∀ rest more, BeginsIn delimiters rest →
      BeginsIn delimiters more →
      store.propertyText depth first ++ rest = store.propertyText depth second ++ more →
      store.AlikeProperty first second ∧ rest = more :=
    fun first inFirst second inSecond _ _ =>
      alikeProperty_of_append (legible.1 first.1 (List.mem_map_of_mem inFirst))
        (otherLegible.1 second.1 (List.mem_map_of_mem inSecond))
        (each first.2 (List.mem_map_of_mem inFirst) second.2 (List.mem_map_of_mem inSecond))
  obtain ⟨entries, behind⟩ := forall₂_of_intercalate (by decide) (by decide) (by decide)
    (propertyText_ne_of_head? legible) (propertyText_ne_of_head? otherLegible) properties
    (List.cons.inj same).2
  exact ⟨alike_object_of_forall₂ known entries, behind⟩

/-- The texts of clear values determine them, inside others. -/
theorem determines
    {depth : Nat}
    {a b : Value}
    (nested : store.NestsUpTo depth a)
    (otherNested : store.NestsUpTo depth b)
    (clear : store.Each store.IsClear a)
    (otherClear : store.Each store.IsClear b) :
    store.Determines depth a b := by
  intro rest more restBegins moreBegins same
  have tags := typeTag_eq_of_render_append clear.here.1 otherClear.here.1 same
  refine (?_ : store.Determines depth a b) rest more restBegins moreBegins same
  by_cases bare : a.typeTag ∉ [.string, .array, .object]
  · exact determines_of_bare clear.here.1 otherClear.here.1 tags bare
  cases a with
  | string text =>
    cases b with
    | string other => exact determines_string clear.here.2 otherClear.here.2
    | _ => cases tags
  | array ref =>
    cases b with
    | array other =>
      cases depth with
      | zero => exact nested.elim
      | succ depth =>
        refine determines_array otherClear.here.1 (fun item mem => (clear.parts item mem).here.1)
          (fun item mem => (otherClear.parts item mem).here.1) fun a inFirst b inSecond => ?_
        exact determines (nested.parts a inFirst) (otherNested.parts b inSecond)
          (clear.parts a inFirst) (otherClear.parts b inSecond)
    | _ => cases tags
  | object ref =>
    cases b with
    | object other =>
      cases depth with
      | zero => exact nested.elim
      | succ depth =>
        refine determines_object otherClear.here.1 clear.here.2 otherClear.here.2
          fun a inFirst b inSecond => ?_
        exact determines (nested.parts a inFirst) (otherNested.parts b inSecond)
          (clear.parts a inFirst) (otherClear.parts b inSecond)
    | _ => cases tags
  | _ => exact absurd (by simp [Value.typeTag]) bare
termination_by depth

/-! ## Members of an array -/

/-- The ends of the keys of a value, and of all strings and keys inside it, can be seen.  The end of
a string on its own is the end of its text. -/
def IsReadable (store : Store) (value : Value) : Prop :=
  store.HasLegibleKeys value ∧ ∀ part ∈ store.parts value, store.Each store.IsLegible part

/-- Values that are alike have the same type. -/
theorem Alike.typeTag_eq
    {left right : Store}
    (alike : Alike left right a b) :
    a.typeTag = b.typeTag := by
  cases alike <;> rfl

/-- Values that are alike have the same text. -/
theorem sameText_of_alike
    (plain : store.Each store.IsPlain a)
    (otherPlain : store.Each store.IsPlain b)
    (alike : Alike store store a b) :
    Method.sameText store a b = true := by
  obtain ⟨_, nested⟩ := plain.exists_nestsUpTo
  obtain ⟨_, otherNested⟩ := otherPlain.exists_nestsUpTo
  have texts := alike.repr_eq_of_nestsUpTo nested.upTo_depthLimit otherNested.upTo_depthLimit
  rw [Method.sameText, alike.typeTag_eq, texts, beq_self_eq_true, beq_self_eq_true, Bool.and_self]

/-- Readable values that are no strings are legible inside others, too. -/
theorem IsReadable.each_isLegible
    (readable : store.IsReadable value)
    (noString : value.typeTag ≠ .string) :
    store.Each store.IsLegible value := by
  refine .of_parts ?_ readable.2
  cases value with
  | string => exact absurd rfl noString
  | _ => exact readable.1

/-- Plain and readable values of the same type with the same text are alike. -/
theorem alike_of_sameText
    (plain : store.Each store.IsPlain a)
    (otherPlain : store.Each store.IsPlain b)
    (readable : store.IsReadable a)
    (otherReadable : store.IsReadable b)
    (same : Method.sameText store a b = true) :
    Alike store store a b := by
  rw [Method.sameText, Bool.and_eq_true, beq_iff_eq, beq_iff_eq] at same
  obtain ⟨tags, texts⟩ := same
  by_cases isString : a.typeTag = .string
  · cases a with
    | string text =>
      cases b with
      | string other =>
        have quoted := congrArg String.toList texts
        rw [repr, repr, toList_render_string, toList_render_string] at quoted
        rw [String.toList_inj.1 (List.append_cancel_right (List.cons.inj quoted).2)]
        exact .string other
      | _ => cases tags
    | _ => cases isString
  · obtain ⟨_, nested⟩ := plain.exists_nestsUpTo
    obtain ⟨_, otherNested⟩ := otherPlain.exists_nestsUpTo
    have clear := plain.and (readable.each_isLegible isString)
    have otherClear := otherPlain.and (otherReadable.each_isLegible (tags ▸ isString))
    have ends : BeginsIn delimiters [','] := beginsIn_cons.2 (by decide)
    rw [← nested.upTo_depthLimit.renderUpTo_eq_repr,
      ← otherNested.upTo_depthLimit.renderUpTo_eq_repr] at texts
    exact (determines nested.upTo_depthLimit otherNested.upTo_depthLimit clear otherClear
      [','] [','] ends ends (congrArg (·.toList ++ [',']) texts)).1

/-- An array includes every value that is like one of its items, and among readable values no
others. -/
theorem includes_plain
    {ref : ArrayRef}
    {needle : Value}
    (plain : ∀ item ∈ (store.array ref).toList, store.Each store.IsPlain item)
    (needlePlain : store.Each store.IsPlain needle) :
    ∃ found,
      Method.includes.perform (.array ref) [needle] store = .ok (.yield (.bool found)) ∧
      ((∃ item ∈ (store.array ref).toList, Alike store store item needle) → found = true) ∧
      ((∀ value ∈ needle :: (store.array ref).toList, store.IsReadable value) → found = true →
        ∃ item ∈ (store.array ref).toList, Alike store store item needle) := by
  refine ⟨_, rfl, ?_, ?_⟩
  · rintro ⟨item, mem, alike⟩
    exact Array.any_eq_true'.2 ⟨item, Array.mem_toList_iff.1 mem,
      sameText_of_alike (plain item mem) needlePlain alike⟩
  · intro readable found
    obtain ⟨item, mem, same⟩ := Array.any_eq_true'.1 found
    have listed := Array.mem_toList_iff.2 mem
    exact ⟨item, listed, alike_of_sameText (plain item listed) needlePlain
      (readable item (List.mem_cons_of_mem needle listed))
      (readable needle List.mem_cons_self) same⟩

/-- An array that holds an array with a zero and an object, and one like it except for the sign of
the zero. -/
theorem includes_plain_of_nested :
    let store : Store :=
      { Store.empty with
        arrays :=
          #[#[.array ⟨1⟩, .string "a', 'b"], #[.number 0, .object ⟨0⟩],
            #[.number (-0), .object ⟨0⟩]]
        objects := #[⟨[("key", .string "it's")]⟩] }
    (∀ value ∈ [Value.array ⟨2⟩, .array ⟨1⟩, .string "a', 'b"],
      store.Each store.IsPlain value ∧ store.IsReadable value) ∧
      Method.includes.perform (.array ⟨0⟩) [.array ⟨2⟩] store = .ok (.yield (.bool true)) := by
  intro store
  have leaf : ∀ {condition : Value → Prop} {value : Value}, condition value →
      store.parts value = [] → store.Each condition value :=
    fun holds none => .of_parts holds (none ▸ List.forall_mem_nil _)
  have object : store.Each store.IsPlain (.object ⟨0⟩) ∧
      store.Each store.IsLegible (.object ⟨0⟩) := by
    have quote : Avoids '\'' delimiters "it's".toList := by
      simp [Avoids, delimiters]
      decide
    have key : store.HasLegibleKeys (.object ⟨0⟩) := by
      refine ⟨List.forall_mem_singleton.2 ?_, fun key first => ?_⟩
      · simp [Avoids]
        decide
      · obtain rfl : "key" = key := Option.some.inj first
        decide
    exact ⟨.of_parts (Nat.zero_lt_one) (List.forall_mem_singleton.2 (leaf trivial rfl)),
      .of_parts key (List.forall_mem_singleton.2 (leaf quote rfl))⟩
  have pair : ∀ (ref : ArrayRef) (x : Float), ref.index < 3 → x.isNaN = false →
      store.parts (.array ref) = [.number x, .object ⟨0⟩] →
      store.Each store.IsPlain (.array ref) ∧ store.IsReadable (.array ref) := by
    intro ref x known isNumber items
    refine ⟨.of_parts known ?_, trivial, ?_⟩ <;> rw [items]
    · exact List.forall_mem_cons.2 ⟨leaf isNumber rfl, List.forall_mem_singleton.2 object.1⟩
    · exact List.forall_mem_cons.2 ⟨leaf trivial rfl, List.forall_mem_singleton.2 object.2⟩
  have needle := pair ⟨2⟩ (-0) (by decide) (by decide +kernel) rfl
  have item := pair ⟨1⟩ 0 (by decide) (by decide +kernel) rfl
  have text : store.Each store.IsPlain (.string "a', 'b") ∧ store.IsReadable (.string "a', 'b") :=
    ⟨leaf trivial rfl, trivial, List.forall_mem_nil _⟩
  have all : ∀ value ∈ [Value.array ⟨2⟩, .array ⟨1⟩, .string "a', 'b"],
      store.Each store.IsPlain value ∧ store.IsReadable value :=
    List.forall_mem_cons.2 ⟨needle, List.forall_mem_cons.2 ⟨item, List.forall_mem_singleton.2 text⟩⟩
  have sameObject : Alike store store (.object ⟨0⟩) (.object ⟨0⟩) :=
    .object Nat.zero_lt_one rfl (List.forall_mem_singleton.2 (.string "it's"))
  have zeros : ((0 : Float) == -0) = true := by decide +kernel
  have alike : Alike store store (.array ⟨1⟩) (.array ⟨2⟩) :=
    .array (by decide) rfl
      (List.forall_mem_cons.2 ⟨.number zeros, List.forall_mem_singleton.2 sameObject⟩)
  obtain ⟨found, answer, included, -⟩ := @includes_plain store ⟨0⟩ (.array ⟨2⟩)
    (fun value mem => (all value (List.mem_cons_of_mem _ mem)).1) needle.1
  rw [answer, included ⟨_, List.mem_cons_self, alike⟩]
  exact ⟨all, rfl⟩

/-- A quote before a comma, a colon before a blank and a brace at the beginning of a key: each makes
two values look alike that are not. -/
theorem includes_of_equal_texts :
    let store : Store :=
      { Store.empty with
        arrays :=
          #[#[.array ⟨1⟩, .object ⟨0⟩, .array ⟨3⟩], #[.string "a', 'b"],
            #[.string "a", .string "b"], #[.object ⟨2⟩], #[.object ⟨3⟩, .object ⟨4⟩]]
        objects :=
          #[⟨[("a: 1, b", .number 2)]⟩, ⟨[("a", .number 1), ("b", .number 2)]⟩,
            ⟨[("\x7d, \x7by", .null)]⟩, .empty, ⟨[("y", .null)]⟩] }
    ∀ needle ∈ [Value.array ⟨2⟩, .object ⟨1⟩, .array ⟨4⟩],
      Method.includes.perform (.array ⟨0⟩) [needle] store = .ok (.yield (.bool true)) ∧
        ∀ item ∈ (store.array ⟨0⟩).toList, ¬ Alike store store item needle := by
  intro store
  have answers : ∀ needle ∈ [Value.array ⟨2⟩, .object ⟨1⟩, .array ⟨4⟩],
      (store.array ⟨0⟩).any (Method.sameText store · needle) = true := by
    decide +kernel
  refine fun needle mem => ⟨?_, fun item inItems alike => ?_⟩
  · have found := answers needle mem
    change Except.ok (Action.yield (.bool ((store.array ⟨0⟩).any _))) = _
    rw [found]
  · change item ∈ [Value.array ⟨1⟩, .object ⟨0⟩, .array ⟨3⟩] at inItems
    simp only [List.mem_cons, List.not_mem_nil, or_false] at mem inItems
    rcases mem with rfl | rfl | rfl <;> rcases inItems with rfl | rfl | rfl <;> cases alike
    · rename_i length _
      exact absurd length (by decide)
    · rename_i length _
      exact absurd length (by decide)
    · rename_i keys _
      exact absurd keys (by decide)
    · rename_i length _
      exact absurd length (by decide)
    · rename_i length _
      exact absurd length (by decide)

end Store
end TinyScript
