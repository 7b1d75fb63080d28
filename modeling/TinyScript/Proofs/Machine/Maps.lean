import TinyScript.Proofs.Machine.Parameters
import TinyScript.Proofs.Machine.Writes

/-!
# Objects as maps

An object begins as a literal, whose properties are evaluated and written one after the other
(`Fills`), and goes on with assignments to it, by whatever it is held.  At every moment it holds
what all these writes made one after the other: each key once, in the place of its first writing,
with the value of its last one.  The functions `keys`, `values` and `length` and reading a property
all tell the same of it (`object_holds_writes`).
-/

namespace TinyScript

/-! ## Tables that are written in order -/

namespace Table

variable {α : Type}

/-- A table made of two lists is that of the first one with the pairs of the second one inserted in
turn. -/
theorem ofList_append
    (pairs more : List (String × α)) :
    ofList (pairs ++ more) =
      more.foldl (fun table pair => table.insert pair.1 pair.2) (ofList pairs) :=
  List.foldl_append

/-- No key stands twice in a table that is made of a list. -/
theorem nodup_keys_ofList
    (pairs : List (String × α)) :
    (ofList pairs).keys.Nodup := by
  induction pairs using List.reverseRecOn with
  | nil => exact .nil
  | append_singleton pairs last ih =>
    rw [ofList_append_singleton]
    cases present : (ofList pairs).contains last.1 with
    | true => rwa [keys_insert_of_contains present]
    | false =>
      have absent : last.1 ∉ (ofList pairs).keys := by
        rw [← contains_iff_mem_keys, present]
        exact Bool.false_ne_true
      rw [keys_insert_of_not_contains present]
      simpa [List.nodup_append] using ⟨ih, fun key mem same => absent (same ▸ mem)⟩

/-- Where each key stands once, the values stand in the order of their keys. -/
theorem map_some_values
    {table : Table α}
    (distinct : table.keys.Nodup) :
    table.values.map some = table.keys.map table.find? := by
  obtain ⟨entries⟩ := table
  simp only [keys, values] at distinct ⊢
  induction entries with
  | nil => rfl
  | cons entry entries ih =>
    rw [List.map_cons, List.nodup_cons] at distinct
    rw [List.map_cons, List.map_cons, List.map_cons, List.map_cons, ih distinct.2]
    have first : (entry :: entries).lookup entry.1 = some entry.2 := List.lookup_cons_self
    refine congrArg₂ List.cons first.symm (List.map_congr_left fun key mem => ?_)
    have differs : key ≠ entry.1 := fun same => distinct.1 (same ▸ mem)
    rw [find?, find?, List.lookup_cons, beq_false_of_ne differs]

/-- A table has as many entries as keys. -/
theorem size_eq_length_keys
    (table : Table α) :
    table.size = table.keys.length :=
  (List.length_map _).symm

end Table

namespace Machine

variable {State : Type} {host : Host State}

/-! ## Literals -/

/-- The values of properties are evaluated one after the other in a scope, each in the store and
with the host that those before it have left, and each is written under its key. -/
inductive Fills (host : Host State) (scope : ScopeRef) :
    List Field → Store × State → List (String × Value) → Store × State → Prop
  | done {moment : Store × State} : Fills host scope [] moment [] moment
  | field {key : String} {expr : Expr} {fields : List Field} {value : Value}
      {written : List (String × Value)} {store : Store} {state next : State} {limit : Nat}
      {m : Machine} {later : Store × State} :
      (ofExpr expr scope store).run host limit state = (m, next) →
      m.outcome? = some (.completed value) →
      Fills host scope fields (m.store, next) written later →
      Fills host scope (.mk key expr :: fields) (store, state) ((key, value) :: written) later

/-- Either all properties are written, or the evaluation of one does not come to a value. -/
theorem fills_or_not
    (host : Host State)
    (scope : ScopeRef)
    (fields : List Field)
    (store : Store)
    (state : State) :
    (∃ written later, Fills host scope fields (store, state) written later) ∨
      ∃ done key expr rest written now next, fields = done ++ .mk key expr :: rest ∧
        Fills host scope done (store, state) written (now, next) ∧
          ∀ limit value, ((ofExpr expr scope now).run host limit next).1.outcome? ≠
            some (.completed value) := by
  induction fields generalizing store state with
  | nil => exact .inl ⟨[], _, .done⟩
  | cons field fields ih =>
    obtain ⟨key, expr⟩ := field
    by_cases completes : ∃ limit value,
        ((ofExpr expr scope store).run host limit state).1.outcome? = some (.completed value)
    · obtain ⟨limit, value, completed⟩ := completes
      rcases ih _ _ with ⟨written, later, fills⟩ |
        ⟨done, other, stuck, rest, written, now, next, rfl, fills, fails⟩
      · exact .inl ⟨_, later, .field rfl completed fills⟩
      · exact .inr ⟨.mk key expr :: done, other, stuck, rest, _, now, next, rfl,
          .field rfl completed fills, fails⟩
    · exact .inr ⟨[], key, expr, fields, [], store, state, rfl, .done,
        fun limit value completed => completes ⟨limit, value, completed⟩⟩

/-- The steps that write the properties of a literal and make the object. -/
theorem Fills.exists_run
    {m : Machine}
    {fields : List Field}
    {state : State}
    {written : List (String × Value)}
    {later : Store × State}
    (fills : Fills host m.scope fields (m.store, state) written later)
    (done : Table Value) :
    ∃ steps, (m.evaluateFields done fields).run host steps state =
      ({ m with
        control := .give (.object (later.1.newObject
          (written.foldl (fun table pair => table.insert pair.1 pair.2) done)).1)
        store := (later.1.newObject
          (written.foldl (fun table pair => table.insert pair.1 pair.2) done)).2 }, later.2) := by
  induction fields generalizing written state done m with
  | nil =>
    cases fills
    exact ⟨0, rfl⟩
  | cons field fields ih =>
    cases fills with
    | @field key expr _ value written _ _ next limit reached _ evaluates completed fills =>
      obtain ⟨count, evaluated⟩ :=
        exists_run_above evaluates completed (.fields done key fields :: m.stack)
      let behind : Machine := { m with control := .give value, store := reached.store }
      obtain ⟨steps, runs⟩ := ih (m := behind) fills (done.insert key value)
      have resumes :
          ({ behind with stack := .fields done key fields :: m.stack } : Machine).run host
            (steps + 1) next = _ :=
        (run_succ_of_step host rfl rfl steps next).trans runs
      refine ⟨count + (steps + 1), ?_⟩
      refine (run_add host count (steps + 1) _ state).trans ?_
      exact (congrArg (fun now => now.1.run host (steps + 1) now.2) evaluated).trans resumes

/-! ## Assignments -/

/-- What is written to an object by the next step, and under which key. -/
def write? (m : Machine) (ref : ObjectRef) : Option (String × Value) :=
  match m.control, m.stack with
  | .give value, .assignValue _ (.object subject) key :: _ =>
    if subject = ref then (Store.keyText key).toOption.map fun text => (text, value) else none
  | _, _ => none

/-- What machines were about to write to an object, the earliest first. -/
def writesTo (ref : ObjectRef) (passed : List Machine) : List (String × Value) :=
  passed.filterMap fun m => m.write? ref

variable {m : Machine} {ref : ObjectRef}

/-- A machine is about to write to an object just when the value of an assignment to one of its keys
is at hand. -/
theorem write?_eq_some_iff
    {text : String}
    {value : Value} :
    m.write? ref = some (text, value) ↔
      ∃ position key rest, m.control = .give value ∧
        m.stack = .assignValue position (.object ref) key :: rest ∧
          Store.keyText key = .ok text := by
  constructor
  · intro writes
    unfold write? at writes
    split at writes
    · rename_i given position subject key rest gives onStack
      split at writes
      · rename_i isRef
        subst isRef
        obtain ⟨found, isText, same⟩ := Option.map_eq_some_iff.1 writes
        cases same
        refine ⟨position, key, rest, gives, onStack, ?_⟩
        cases texts : Store.keyText key with
        | ok other =>
          rw [texts] at isText
          cases isText
          rfl
        | error cause =>
          rw [texts] at isText
          cases isText
      · cases writes
    · cases writes
  · rintro ⟨position, key, rest, gives, onStack, isText⟩
    simp [write?, gives, onStack, isText, Except.toOption]

/-- A step writes to an object what is about to be written, and nothing else. -/
theorem object_advance
    (installed : m.Installed)
    (known : ref.index < m.store.objects.size)
    (host : Host State)
    (state : State) :
    (m.advance host state).1.store.object ref =
      (m.write? ref).toList.foldl (fun table pair => table.insert pair.1 pair.2)
        (m.store.object ref) := by
  cases writes : m.write? ref with
  | some pair =>
    obtain ⟨position, key, rest, gives, onStack, isText⟩ := write?_eq_some_iff.1 writes
    have placed : m.store.place (.object ref) key = .ok (.property ref pair.1) := by
      simp only [Store.place, isText]
      rfl
    have asks : m.request? = none := by rw [request?, gives]
    have stored : m.step.store = m.store.setProperty ref pair.1 pair.2 := by
      rw [step, gives, onStack]
      simp only [resume, placed]
      rfl
    rw [advance_eq_step asks, stored, Store.object_setProperty_self known]
    rfl
  | none =>
    show _ = m.store.object ref
    cases installed.writes_advance host state with
    | keep same => exact same.object ref
    | makeArray items same => exact same.object ref
    | makeObject fields same => rw [same.object, Store.object_newObject_of_lt known]
    | push _ same => exact same.object ref
    | pop _ same => exact same.object ref
    | @put value position subject key rest place gives onStack placed same =>
      rw [same.object]
      cases place with
      | item => rfl
      | property other text =>
        refine Store.object_setProperty_of_ne (fun here => ?_) m.store text value
        subst here
        obtain rfl := Store.eq_owner_of_place placed
        obtain ⟨found, isText, given⟩ := exists_of_bind_eq_ok placed
        cases given
        rw [write?_eq_some_iff.2 ⟨position, key, rest, gives, onStack, isText⟩] at writes
        cases writes

/-- All that has been done to an object in a course are the assignments to it, one after the
other. -/
theorem object_of_course
    {start : Machine}
    {passed : List Machine}
    (installed : start.Installed)
    (known : ref.index < start.store.objects.size)
    (course : Course host start passed m) :
    m.store.object ref =
      (writesTo ref passed).foldl (fun table pair => table.insert pair.1 pair.2)
        (start.store.object ref) := by
  induction course with
  | start => rfl
  | @advance passed m state course ih =>
    have stillKnown := Nat.lt_of_lt_of_le known (course.size_le installed).2
    have both : writesTo ref (passed ++ [m]) = writesTo ref passed ++ (m.write? ref).toList := by
      rw [writesTo, List.filterMap_append]
      cases writes : m.write? ref <;> simp [writesTo, writes]
    rw [both, List.foldl_append, ← ih]
    exact object_advance (course.installed installed) stillKnown host state
  | turn _ same _ ih => rw [same.object, ih]

/-! ## What an object tells -/

/-- An object tells of writes that were made to it one after the other.  Its function `keys` gives
the keys, each once, in the order of their first writing, and `values` in the same order what was
written last under each; `length` gives their number.  Under each key, a text or the number that it
is the text of, what was written last is read, and a function of objects only under a name that is
no key. -/
structure Holds (m : Machine) (ref : ObjectRef) (written : List (String × Value)) : Prop where
  distinct : (written.map Prod.fst).eraseDups.Nodup
  keys : ∀ arguments position,
    let next := { m with control := .apply (.method (.object ref) .keys) arguments position }.step
    ∃ made, next.control = .give (.array made) ∧
      (next.store.array made).toList = (written.map Prod.fst).eraseDups.map .string
  values : ∀ arguments position,
    let next := { m with control := .apply (.method (.object ref) .values) arguments position }.step
    ∃ made, next.control = .give (.array made) ∧
      (next.store.array made).toList.map some =
        (written.map Prod.fst).eraseDups.map fun key => written.reverse.lookup key
  length : ∀ position,
    { m with control := .apply (.native .length) [.object ref] position }.step.control =
      .give (.number (Float.ofNat (written.map Prod.fst).eraseDups.length))
  member : ∀ key text, Store.keyText key = .ok text → text ∈ written.map Prod.fst →
    ∃ value, written.reverse.lookup text = some value ∧
      m.store.member (.object ref) key = .ok value
  method : ∀ method ∈ Method.ofType .object, method.name ∉ written.map Prod.fst →
    m.store.member (.object ref) (.string method.name) = .ok (.method (.object ref) method)

/-- An object whose table is made of writes holds those writes. -/
theorem holds_of_object_eq
    {written : List (String × Value)}
    (same : m.store.object ref = .ofList written) :
    m.Holds ref written := by
  have keys : (m.store.object ref).keys = (written.map Prod.fst).eraseDups := by
    rw [same, Table.keys_ofList]
  have distinct : (m.store.object ref).keys.Nodup := by
    rw [same]
    exact Table.nodup_keys_ofList written
  have find? : ∀ key, (m.store.object ref).find? key = written.reverse.lookup key := by
    intro key
    rw [same, Table.find?_ofList]
  refine ⟨keys ▸ distinct, fun arguments position => ?_, fun arguments position => ?_,
    fun position => ?_, fun key text isText mem => ?_, fun method isMethod absent => ?_⟩
  · refine ⟨_, rfl, ?_⟩
    rw [← keys]
    exact congrArg Array.toList (m.store.array_newArray _)
  · refine ⟨_, rfl, ?_⟩
    simp only [← keys, ← find?]
    rw [← Table.map_some_values distinct]
    exact congrArg (fun items => items.toList.map some) (m.store.array_newArray _)
  · rw [← keys, ← Table.size_eq_length_keys]
    rfl
  · rw [← List.mem_eraseDups, ← keys, ← Table.contains_iff_mem_keys] at mem
    obtain ⟨value, found⟩ := Option.isSome_iff_exists.1 mem
    refine ⟨value, (find? text).symm.trans found, ?_⟩
    simp only [Store.member, isText, Store.own?, found, bind, Except.bind]
    rfl
  · rw [← List.mem_eraseDups, ← keys, ← Table.contains_iff_mem_keys, Bool.not_eq_true] at absent
    have unfound : (m.store.object ref).find? method.name = none := by
      rwa [Table.contains, Option.isSome_eq_false_iff, Option.isNone_iff_eq_none] at absent
    simp only [Store.member, Store.keyText, Store.own?, unfound, bind, Except.bind]
    simp only [Method.ofType, List.mem_cons, List.not_mem_nil, or_false] at isMethod
    rcases isMethod with rfl | rfl <;> rfl

/-- Objects are maps that keep the order of insertion.  If the values of the properties of a literal
can all be evaluated, the literal gives an object, and at every later moment, in this run or another
one, the object tells of the properties and of all assignments to it since, by whatever it was held,
as of writes made one after the other.  Otherwise the evaluation of one of the properties does not
come to a value. -/
theorem object_holds_writes
    {start : Machine}
    {position : Position}
    {fields : List Field}
    (installed : start.Installed)
    (atHand : start.control = .evaluate (.object position fields))
    (host : Host State)
    (state : State) :
    (∀ written later, Fills host start.scope fields (start.store, state) written later →
      ∃ ref steps begun, start.run host steps state = (begun, later.2) ∧
        begun.control = .give (.object ref) ∧ begun.scope = start.scope ∧
        begun.stack = start.stack ∧
        ∀ passed m, Course host begun passed m → m.Holds ref (written ++ writesTo ref passed)) ∧
    ((∃ written later, Fills host start.scope fields (start.store, state) written later) ∨
      ∃ done key expr rest written now next, fields = done ++ .mk key expr :: rest ∧
        Fills host start.scope done (start.store, state) written (now, next) ∧
          ∀ limit value, ((ofExpr expr start.scope now).run host limit next).1.outcome? ≠
            some (.completed value)) := by
  refine ⟨fun written later fills => ?_, fills_or_not host start.scope fields start.store state⟩
  obtain ⟨steps, runs⟩ := fills.exists_run .empty
  let made := later.1.newObject (.ofList written)
  let begun : Machine := { start with control := .give (.object made.1), store := made.2 }
  have begins : start.run host (steps + 1) state = (begun, later.2) := by
    have goes : start.outcome? = none := by
      unfold outcome?
      rw [atHand]
    have asks : start.request? = none := by rw [request?, atHand]
    have steps₁ : start.step = start.evaluateFields .empty fields := by
      rw [step, atHand]
      rfl
    rw [run_succ_of_step host goes asks, steps₁]
    exact runs
  refine ⟨made.1, steps + 1, begun, begins, rfl, rfl, rfl, fun passed m course => ?_⟩
  have begunInstalled : begun.Installed := by
    have ran := installed.run host (steps + 1) state
    rwa [begins] at ran
  have known : made.1.index < begun.store.objects.size := by
    simp [begun, made, Store.newObject]
  refine holds_of_object_eq ?_
  rw [object_of_course begunInstalled known course, Table.ofList_append]
  have first : begun.store.object made.1 = .ofList written :=
    later.1.object_newObject (.ofList written)
  rw [first]

/-- A literal writes one key twice and another one that is the name of a function of objects; then a
number is assigned under, and the first key again. -/
theorem object_holds_writes_of_literal :
    let host : Host Unit :=
      { readLine := fun _ => ([], ())
        clock := fun _ => (0, ())
        random := fun _ => (0, ())
        call := fun _ _ _ store _ => (.ok .null, store, ()) }
    let position : Position := { line := 0, column := 0, offset := 0 }
    let fields : List Field :=
      [.mk "b" (.number position 1), .mk "keys" (.number position 2), .mk "b" (.number position 3)]
    let start : Machine :=
      { control := .evaluate (.object position fields), scope := ⟨0⟩, stack := []
        store := Store.empty }
    start.Installed ∧
      ∃ ref begun assign again last, Course host begun [assign, again] last ∧
        begun.control = .give (.object ref) ∧
        last.Holds ref [("b", .number 1), ("keys", .number 2), ("b", .number 3),
          ("7", .bool true), ("b", .null)] ∧
        last.store.member (.object ref) (.string "keys") = .ok (.number 2) ∧
        last.store.member (.object ref) (.number 7) = .ok (.bool true) ∧
        last.store.member (.object ref) (.string "b") = .ok .null := by
  intro host position fields start
  have installed : start.Installed :=
    ⟨trivial, by simp [start], by simp [start, Store.empty], by simp [start, Store.empty],
      by simp [start, Store.empty]⟩
  have gives : ∀ x, (ofExpr (.number position x) ⟨0⟩ Store.empty).run host 1 () =
      ({ control := .give (.number x), scope := ⟨0⟩, stack := [], store := Store.empty }, ()) :=
    fun _ => rfl
  have fills : Fills host ⟨0⟩ fields (Store.empty, ())
      [("b", .number 1), ("keys", .number 2), ("b", .number 3)] (Store.empty, ()) :=
    .field (gives 1) rfl (.field (gives 2) rfl (.field (gives 3) rfl .done))
  obtain ⟨ref, steps, begun, runs, isObject, -, -, holds⟩ :=
    (object_holds_writes installed rfl host ()).1 _ _ fills
  have assigns : ∀ {m : Machine} (value key : Value), m.Installed → value.Installed →
      key.Installed →
      ({ m with control := .give value, stack := [.assignValue position (.object ref) key] } :
        Machine).Installed :=
    fun value key before isValue isKey =>
      ⟨isValue, by simpa [Frame.All, Value.Installed] using isKey, before.store⟩
  have begins : begun.Installed := by
    have ran := installed.run host steps ()
    rwa [runs] at ran
  let assign : Machine :=
    { begun with
      control := .give (.bool true)
      stack := [.assignValue position (.object ref) (.number 7)] }
  have assignInstalled : assign.Installed := assigns (.bool true) (.number 7) begins trivial trivial
  let next := (assign.advance host ()).1
  let again : Machine :=
    { next with
      control := .give .null
      stack := [.assignValue position (.object ref) (.string "b")] }
  have againInstalled : again.Installed :=
    assigns .null (.string "b") (assignInstalled.advance host ()) trivial trivial
  have toAssign : Course host begun [] assign := Course.start.turn ⟨rfl, rfl⟩ assignInstalled
  have toAgain : Course host begun [assign] again :=
    (toAssign.advance ()).turn ⟨rfl, rfl⟩ againInstalled
  have course : Course host begun [assign, again] (again.advance host ()).1 := toAgain.advance ()
  have written : writesTo ref [assign, again] = [("7", .bool true), ("b", .null)] := by
    have first : assign.write? ref = some ("7", .bool true) :=
      write?_eq_some_iff.2 ⟨_, _, _, rfl, rfl, rfl⟩
    have second : again.write? ref = some ("b", .null) :=
      write?_eq_some_iff.2 ⟨_, _, _, rfl, rfl, rfl⟩
    simp [writesTo, first, second]
  have told := holds _ _ course
  rw [written] at told
  have reads : ∀ {key text value}, Store.keyText key = .ok text →
      text ∈ ["b", "keys", "b", "7", "b"] →
      [("b", .null), ("7", .bool true), ("b", .number 3), ("keys", .number 2),
        ("b", .number 1)].lookup text = some value →
      (again.advance host ()).1.store.member (.object ref) key = .ok value := by
    intro key text value isText mem last
    obtain ⟨found, same, read⟩ := told.member key text isText mem
    cases last.symm.trans same
    exact read
  exact ⟨installed, ref, begun, assign, again, _, course, isObject, told,
    reads rfl (by decide) rfl, reads rfl (by decide) rfl, reads rfl (by decide) rfl⟩

end Machine
end TinyScript
