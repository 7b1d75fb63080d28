import TinyScript.Proofs.Machine.Sequence
import TinyScript.Proofs.Store.Alike
import TinyScript.Proofs.Store.Preface
import TinyScript.Proofs.Text.Filling

/-!
# What literals evaluate to

A literal builds a value: evaluated anywhere, it comes to one that is like it, asks the
surrounding program nothing, and changes nothing but to add arrays and objects to the store.
-/

namespace TinyScript
namespace Machine

/-- An expression at hand leads to the beginning of its evaluation. -/
theorem comesTo_evaluate
    (m : Machine)
    (expr : Expr) :
    ({ m with control := .evaluate expr } : Machine).ComesTo
      (({ m with control := .evaluate expr } : Machine).evaluate expr) :=
  comesTo_step rfl rfl

/-- A value leads to what the frame on top does with it. -/
theorem comesTo_resume
    (m : Machine)
    (value : Value)
    (frame : Frame) :
    ({ m with control := .give value, stack := frame :: m.stack } : Machine).ComesTo
      (({ m with control := .give value } : Machine).resume value frame) :=
  comesTo_step rfl rfl

end Machine

/-! ## Literals -/

/-- Wherever `null` is what the library binds it to, an expression comes to a value that is like
the given one of the source, whatever the positions of its nodes. -/
def Expr.Builds (source : Store) (value : Value) (expr : Expr) : Prop :=
  ∀ parsed : Expr, parsed.erase = expr.erase →
    ∀ m : Machine, m.store.lookup m.scope "null" = .null →
      ∃ result later, later.Includes m.store ∧ Store.Alike source later value result ∧
        ({ m with control := .evaluate parsed } : Machine).ComesTo
          { m with control := .give result, store := later }

variable {source : Store}

/-- A literal that is given at once. -/
theorem builds_of_evaluate
    {value result : Value}
    {expr : Expr}
    (alike : ∀ later, Store.Alike source later value result)
    (gives : ∀ parsed : Expr, parsed.erase = expr.erase →
      ∀ m : Machine, m.store.lookup m.scope "null" = .null → m.evaluate parsed = m.give result) :
    expr.Builds source value := by
  intro parsed same m null
  refine ⟨result, m.store, .refl _, alike _, ?_⟩
  have steps := m.comesTo_evaluate parsed
  rw [gives parsed same { m with control := .evaluate parsed } null] at steps
  exact steps

/-- The name of the null value builds it. -/
theorem builds_null :
    (Expr.name .start "null").Builds source .null := by
  refine builds_of_evaluate (fun _ => .null) fun parsed same m null => ?_
  cases parsed with
  | name position name =>
    obtain rfl : name = "null" := (Expr.name.inj same).2
    rw [Machine.evaluate, null]
  | _ => cases same

/-- The literal of the undefined value builds it. -/
theorem builds_undefined :
    (Expr.undefined .start).Builds source .undefined := by
  refine builds_of_evaluate (fun _ => .undefined) fun parsed same m _ => ?_
  cases parsed with
  | undefined position => rfl
  | _ => cases same

/-- A literal builds its truth value. -/
theorem builds_bool
    (value : Bool) :
    (Expr.bool .start value).Builds source (.bool value) := by
  refine builds_of_evaluate (fun _ => .bool value) fun parsed same m _ => ?_
  cases parsed with
  | bool position other =>
    obtain rfl : other = value := (Expr.bool.inj same).2
    rfl
  | _ => cases same

/-- A text without an opening brace has nothing to be filled in. -/
theorem builds_text
    {text : String}
    (plain : ∀ c ∈ text.toList, c ≠ '\x7b') :
    (Expr.text .start text).Builds source (.string text) := by
  refine builds_of_evaluate (fun _ => .string text) fun parsed same m _ => ?_
  cases parsed with
  | text position other =>
    obtain rfl : other = text := (Expr.text.inj same).2
    rw [Machine.evaluate, Text.fill_of_noBrace plain]
  | _ => cases same

/-- A literal builds every number that is equal to the one written. -/
theorem builds_number
    {x y : Float}
    (equal : (x == y) = true) :
    (Expr.number .start y).Builds source (.number x) := by
  refine builds_of_evaluate (fun _ => .number equal) fun parsed same m _ => ?_
  cases parsed with
  | number position other =>
    obtain rfl : other = y := (Expr.number.inj same).2
    rfl
  | _ => cases same

/-- A literal with a minus sign builds every number that is equal to the negated one. -/
theorem builds_negative
    {x y : Float}
    (equal : (x == -y) = true) :
    (Expr.unary .start .minus (.number .start y)).Builds source (.number x) := by
  intro parsed same m _
  refine ⟨.number (-y), m.store, .refl _, .number equal, ?_⟩
  cases parsed with
  | unary position op operand =>
    obtain ⟨-, rfl, operandSame⟩ := Expr.unary.inj same
    cases operand with
    | number place other =>
      obtain rfl : other = y := (Expr.number.inj operandSame).2
      have enters := m.comesTo_evaluate (.unary position .minus (.number place other))
      have gives := Machine.comesTo_evaluate
        { m with stack := .unary position .minus :: m.stack } (.number place other)
      exact enters.trans (gives.trans (m.comesTo_resume (.number other) (.unary position .minus)))
    | _ => cases operandSame
  | _ => cases same

/-! ## Arrays and objects -/

section Lists

variable {tree : Value → Expr}

/-- The items of an array are built one after the other, and then the array. -/
theorem exists_comesTo_items
    {values : List Value}
    (each : ∀ value ∈ values, (tree value).Builds source value)
    {items : List Expr}
    (same : items.map Expr.erase = values.map fun value => (tree value).erase)
    (done : List Value)
    (m : Machine)
    (null : m.store.lookup m.scope "null" = .null) :
    ∃ results later, later.Includes m.store ∧
      List.Forall₂ (Store.Alike source later) values results ∧
      (m.evaluateItems done items).ComesTo
        { m with
          control := .give (.array (later.newArray (done.reverse ++ results).toArray).1)
          store := (later.newArray (done.reverse ++ results).toArray).2 } := by
  induction values generalizing items done m with
  | nil =>
    obtain rfl := List.map_eq_nil_iff.1 same
    refine ⟨[], m.store, .refl _, .nil, ?_⟩
    rw [List.append_nil]
    exact .refl _
  | cons value values ih =>
    obtain ⟨item, items, rfl, itemSame, itemsSame⟩ := List.map_eq_cons_iff.1 same
    rw [List.forall_mem_cons] at each
    let above : Machine := { m with stack := .items done items :: m.stack }
    obtain ⟨result, next, grown, alike, gives⟩ := each.1 item itemSame above null
    let behind : Machine := { m with control := .give result, store := next }
    obtain ⟨results, later, grownOn, allAlike, goesOn⟩ :=
      ih each.2 itemsSame (result :: done) behind (by rw [grown.lookup_eq]; exact null)
    refine ⟨result :: results, later, grownOn.trans grown, .cons (alike.grow grownOn) allAlike, ?_⟩
    rw [List.reverse_cons, List.append_assoc] at goesOn
    exact gives.trans ((behind.comesTo_resume result (.items done items)).trans goesOn)

/-- The literal of an array builds a copy of the array if those of the items build copies of the
items. -/
theorem builds_array
    {ref : ArrayRef}
    (each : ∀ item ∈ (source.array ref).toList, (tree item).Builds source item) :
    (Expr.array .start ((source.array ref).toList.map tree)).Builds source (.array ref) := by
  intro parsed same m null
  cases parsed with
  | array position items =>
    have itemsSame := (Expr.array.inj same).2
    rw [Expr.relabelAll_eq_map, Expr.relabelAll_eq_map, List.map_map] at itemsSame
    let begun : Machine := { m with control := .evaluate (.array position items) }
    obtain ⟨results, later, grown, alike, built⟩ :=
      exists_comesTo_items each itemsSame [] begun null
    obtain ⟨length, pairs⟩ := List.forall₂_iff_zip.1 alike
    let next := (later.newArray results.toArray).2
    have grownOn : next.Includes later := later.includes_newArray results.toArray
    have made : next.array (later.newArray results.toArray).1 = results.toArray :=
      later.array_newArray results.toArray
    refine ⟨.array (later.newArray results.toArray).1, next, grownOn.trans grown,
      .array ?_ ?_ ?_, (m.comesTo_evaluate _).trans built⟩
    · simp [next, Store.newArray]
    · rw [made, length]
    · rw [made]
      exact fun item mem => (pairs mem).grow grownOn
  | _ => cases same

/-- A new key is put behind the others. -/
theorem Table.insert_of_not_mem
    {α : Type}
    {table : Table α}
    {key : String}
    (absent : key ∉ table.keys)
    (value : α) :
    table.insert key value = { entries := table.entries ++ [(key, value)] } := by
  have behind := insert_behind absent (.empty : Table α) value
  simpa [Table.behind, Table.empty, insert, insertEntry] using behind

/-- The properties of an object are built one after the other, and then the object. -/
theorem exists_comesTo_fields
    {entries : List (String × Value)}
    (each : ∀ entry ∈ entries, (tree entry.2).Builds source entry.2)
    {fields : List Field}
    (same : fields.map Field.erase =
      entries.map fun entry => (Field.mk entry.1 (tree entry.2)).erase)
    (done : Table Value)
    (distinct : (done.keys ++ entries.map (·.1)).Nodup)
    (m : Machine)
    (null : m.store.lookup m.scope "null" = .null) :
    ∃ results later, later.Includes m.store ∧
      List.Forall₂ (Store.Alike source later) (entries.map (·.2)) results ∧
      (m.evaluateFields done fields).ComesTo
        { m with
          control := .give (.object (later.newObject
            { entries := done.entries ++ (entries.map (·.1)).zip results }).1)
          store := (later.newObject
            { entries := done.entries ++ (entries.map (·.1)).zip results }).2 } := by
  induction entries generalizing fields done m with
  | nil =>
    obtain rfl := List.map_eq_nil_iff.1 same
    refine ⟨[], m.store, .refl _, .nil, ?_⟩
    rw [List.zip_nil_right, List.append_nil]
    exact .refl _
  | cons entry entries ih =>
    obtain ⟨field, fields, rfl, fieldSame, fieldsSame⟩ := List.map_eq_cons_iff.1 same
    obtain ⟨key, expr⟩ := field
    obtain ⟨rfl, exprSame⟩ := Field.mk.inj fieldSame
    rw [List.forall_mem_cons] at each
    let above : Machine := { m with stack := .fields done entry.1 fields :: m.stack }
    obtain ⟨result, next, grown, alike, gives⟩ := each.1 expr exprSame above null
    let behind : Machine := { m with control := .give result, store := next }
    rw [List.map_cons, List.append_cons] at distinct
    have absent : entry.1 ∉ done.keys := fun mem =>
      List.disjoint_of_nodup_append (List.nodup_append.1 distinct).1 mem
        (List.mem_singleton_self _)
    have inserted := Table.insert_of_not_mem absent result
    have distinctBehind : ((done.insert entry.1 result).keys ++ entries.map (·.1)).Nodup := by
      rw [inserted]
      simpa [Table.keys] using distinct
    obtain ⟨results, later, grownOn, allAlike, goesOn⟩ :=
      ih each.2 fieldsSame _ distinctBehind behind (by rw [grown.lookup_eq]; exact null)
    refine ⟨result :: results, later, grownOn.trans grown, .cons (alike.grow grownOn) allAlike, ?_⟩
    have resumes := behind.comesTo_resume result (.fields done entry.1 fields)
    change Machine.ComesTo _ (behind.evaluateFields (done.insert entry.1 result) fields) at resumes
    rw [inserted] at resumes goesOn
    rw [List.append_assoc] at goesOn
    exact gives.trans (resumes.trans goesOn)

/-- The literal of an object builds a copy of the object if those of the properties build copies of
the properties, and no key stands twice. -/
theorem builds_object
    {ref : ObjectRef}
    (distinct : (source.object ref).keys.Nodup)
    (each : ∀ value ∈ (source.object ref).values, (tree value).Builds source value) :
    (Expr.object .start ((source.object ref).entries.map fun entry =>
      .mk entry.1 (tree entry.2))).Builds source (.object ref) := by
  intro parsed same m null
  cases parsed with
  | object position fields =>
    have fieldsSame := (Expr.object.inj same).2
    rw [Field.relabelAll_eq_map, Field.relabelAll_eq_map, List.map_map] at fieldsSame
    let begun : Machine := { m with control := .evaluate (.object position fields) }
    obtain ⟨results, later, grown, alike, built⟩ :=
      exists_comesTo_fields (fun entry mem => each entry.2 (List.mem_map_of_mem mem)) fieldsSame
        .empty (by simpa [Table.keys, Table.empty] using distinct) begun null
    obtain ⟨length, pairs⟩ := List.forall₂_iff_zip.1 alike
    let properties : Table Value := { entries := (source.object ref).keys.zip results }
    let next := (later.newObject properties).2
    have grownOn : next.Includes later := later.includes_newObject properties
    have made : next.object (later.newObject properties).1 = properties :=
      later.object_newObject properties
    have sameLength : (source.object ref).keys.length = results.length := by
      simpa [Table.keys] using length
    have keys : properties.keys = (source.object ref).keys :=
      List.map_fst_zip sameLength.le
    have values : properties.values = results :=
      List.map_snd_zip sameLength.ge
    refine ⟨.object (later.newObject properties).1, next, grownOn.trans grown,
      .object ?_ ?_ ?_, (m.comesTo_evaluate _).trans built⟩
    · simp [next, Store.newObject]
    · rw [made, keys]
    · rw [made, values]
      exact fun value mem => (pairs mem).grow grownOn
  | _ => cases same

end Lists

end TinyScript
