import TinyScript.Proofs.Machine.Writes

/-!
# Arrays as lists

Whoever holds an array holds a reference to it, so all that is done to an array in a run, by
whatever name, is done to one list of items.  What each deed does to a list is said here without
stores (`Deed.Goes`).  In a run every deed finds the list that the one before it has left, and does
to it what it does to a list, or fails and leaves it; nothing else changes the list, and a deed
changes nothing else (`array_refines_list`).
-/

namespace TinyScript

/-! ## Deeds on lists -/

/-- A key has a numeric value: a number has itself, and a text the number that it is read as. -/
inductive Value.Counts : Value → Float → Prop
  | number (x : Float) : Counts (.number x) x
  | text {text : String} {x : Float} : Number.read? text.toList = some x → Counts (.string text) x

/-- A key counts as a number just when the element at this number can be asked for by it. -/
theorem Value.counts_iff
    {key : Value}
    {x : Float} :
    key.Counts x ↔ Store.indexNumber key = .ok x := by
  constructor
  · rintro (_ | read)
    · rfl
    · rw [Store.indexNumber, read]
  · intro counts
    cases key with
    | number y =>
      cases counts
      exact .number x
    | string text =>
      simp only [Store.indexNumber] at counts
      split at counts
      · rename_i read
        cases counts
        exact .text read
      · cases counts
    | _ => cases counts

/-- What is done to an array. -/
inductive Deed
  | push (items : List Value)
  | pop
  | length
  /-- An assignment to the item that a key counts to. -/
  | replace (key value : Value)

namespace Deed

/-- How a deed goes on a list: the value that it gives, and the list that it leaves.  A deed fails
on a list on which it does not go at all. -/
inductive Goes : Deed → List Value → Value → List Value → Prop
  | push {items list} :
      items ≠ [] →
      Goes (.push items) list (.number (Float.ofNat (list ++ items).length)) (list ++ items)
  | pop {list last} : Goes .pop (list ++ [last]) last list
  | length {list} : Goes .length list (.number (Float.ofNat list.length)) list
  | replace {key value number before old after} :
      key.Counts number → Number.TruncatesTo number before.length →
      Goes (.replace key value) (before ++ old :: after) value (before ++ value :: after)

/-- Deeds done one after the other to a list, the earliest first, each with the value that it gave,
if it did not fail.  Each of them finds the list that those before it have left. -/
inductive Replay : List (Deed × Option Value) → List Value → List Value → Prop
  | none {list} : Replay [] list list
  | goes {deeds deed result list middle after} :
      Replay deeds list middle → Goes deed middle result after →
      Replay (deeds ++ [(deed, some result)]) list after
  | fails {deeds deed list middle} :
      Replay deeds list middle → (∀ result after, ¬ Goes deed middle result after) →
      Replay (deeds ++ [(deed, .none)]) list middle

variable {list : List Value}

/-- A list is cut at the item that a key counts to. -/
theorem goes_replace_iff
    {key value result : Value}
    {after : List Value} :
    Goes (.replace key value) list result after ↔
      ∃ number index, Store.indexNumber key = .ok number ∧ Number.index? number = some index ∧
        index < list.length ∧ result = value ∧ after = list.set index value := by
  constructor
  · rintro (_ | _ | _ | ⟨counts, truncates⟩)
    rename_i number before old behind
    refine ⟨number, before.length, Value.counts_iff.1 counts, Number.index?_eq_some_iff.2 truncates,
      ?_, rfl, ?_⟩
    · simp
    · simp
  · rintro ⟨number, index, counts, found, inside, rfl, rfl⟩
    have split : list.take index ++ list[index] :: list.drop (index + 1) = list := by simp
    have cut : (list.take index).length = index := List.length_take_of_le (Nat.le_of_lt inside)
    rw [List.set_eq_take_append_cons_drop, if_pos inside]
    conv => arg 2; rw [← split]
    refine .replace (Value.counts_iff.2 counts) (Number.index?_eq_some_iff.1 ?_)
    rw [cut, found]

/-- A deed goes in one way only. -/
theorem Goes.unique
    {deed : Deed}
    {result other : Value}
    {after behind : List Value}
    (goes : Goes deed list result after)
    (too : Goes deed list other behind) :
    other = result ∧ behind = after := by
  cases deed with
  | push items =>
    cases goes
    cases too
    exact ⟨rfl, rfl⟩
  | pop =>
    generalize whole : list = items at too
    cases goes
    cases too
    obtain ⟨rfl, last⟩ := List.append_inj' whole rfl
    exact ⟨(List.singleton_inj.1 last).symm, rfl⟩
  | length =>
    cases goes
    cases too
    exact ⟨rfl, rfl⟩
  | replace key value =>
    obtain ⟨number, index, counts, found, -, rfl, rfl⟩ := goes_replace_iff.1 goes
    obtain ⟨number', index', counts', found', -, rfl, rfl⟩ := goes_replace_iff.1 too
    cases counts.symm.trans counts'
    cases found.symm.trans found'
    exact ⟨rfl, rfl⟩

end Deed

/-! ## Deeds of a machine -/

/-- Two stores have the same arrays and objects, but for the items of one array. -/
structure Store.SameHeapBut (later store : Store) (ref : ArrayRef) : Prop where
  size : later.arrays.size = store.arrays.size
  arrays : ∀ other, other ≠ ref → later.array other = store.array other
  objects : later.objects = store.objects

namespace Machine

/-- What is done to an array by the next step. -/
def deed? (m : Machine) (ref : ArrayRef) : Option Deed :=
  match m.control, m.stack with
  | .apply (.method (.array receiver) method) arguments _, _ =>
    if receiver = ref then
      match method with
      | .push => some (.push arguments)
      | .pop => some .pop
      | .arrayLength => some .length
      | _ => none
    else none
  | .apply (.native .length) [.array subject] _, _ => if subject = ref then some .length else none
  | .give value, .assignValue _ (.array subject) key :: _ =>
    if subject = ref then some (.replace key value) else none
  | _, _ => none

/-- The value that a machine gives at the moment. -/
def given? (m : Machine) : Option Value :=
  match m.control with
  | .give value => some value
  | _ => none

/-- The deeds that machines were about to do to an array, each with the value that it gave. -/
def deedsOn (ref : ArrayRef) (passed : List Machine) : List (Deed × Option Value) :=
  passed.filterMap fun m => (m.deed? ref).map fun deed => (deed, m.step.given?)

variable {m : Machine} {ref : ArrayRef} {deed : Deed}

/-- A deed has been done to an array of a machine, and nothing else: it gave a value as on a list,
or it failed, because on this list it does not go. -/
inductive Does (m : Machine) (ref : ArrayRef) (deed : Deed) (next : Machine) : Prop
  | goes {result} :
      deed.Goes (m.store.array ref).toList result (next.store.array ref).toList →
      next.control = .give result → next.store.SameHeapBut m.store ref → Does m ref deed next
  | fails {fault} :
      (∀ result after, ¬ deed.Goes (m.store.array ref).toList result after) →
      next.control = .failed fault → next.store = m.store → Does m ref deed next

/-- There is only one way in which a deed is at hand. -/
theorem cases_of_deed?
    (atHand : m.deed? ref = some deed) :
    (∃ items position, m.control = .apply (.method (.array ref) .push) items position ∧
      deed = .push items) ∨
    (∃ arguments position, m.control = .apply (.method (.array ref) .pop) arguments position ∧
      deed = .pop) ∨
    ((∃ arguments position,
        m.control = .apply (.method (.array ref) .arrayLength) arguments position) ∨
      (∃ position, m.control = .apply (.native .length) [.array ref] position)) ∧
        deed = .length ∨
    ∃ value position key rest, m.control = .give value ∧
      m.stack = .assignValue position (.array ref) key :: rest ∧ deed = .replace key value := by
  unfold deed? at atHand
  split at atHand
  · rename_i receiver method arguments position same
    split at atHand
    · rename_i isRef
      subst isRef
      split at atHand <;> cases atHand
      · exact .inl ⟨_, _, same, rfl⟩
      · exact .inr (.inl ⟨_, _, same, rfl⟩)
      · exact .inr (.inr (.inl ⟨.inl ⟨_, _, same⟩, rfl⟩))
    · cases atHand
  · rename_i subject position same
    split at atHand <;> cases atHand
    rename_i isRef
    subst isRef
    exact .inr (.inr (.inl ⟨.inr ⟨_, same⟩, rfl⟩))
  · rename_i value position subject key rest gives onStack
    split at atHand <;> cases atHand
    rename_i isRef
    subst isRef
    exact .inr (.inr (.inr ⟨_, _, _, _, gives, onStack, rfl⟩))
  · cases atHand

/-- No machine asks anything of the host while it does something to an array. -/
theorem request?_of_deed?
    (atHand : m.deed? ref = some deed) :
    m.request? = none := by
  unfold request?
  rcases cases_of_deed? atHand with ⟨_, _, same, -⟩ | ⟨_, _, same, -⟩ |
    ⟨⟨_, _, same⟩ | ⟨_, same⟩, -⟩ | ⟨_, _, _, _, same, -, -⟩ <;> rw [same]

/-- A change to one array leaves the other arrays and all objects as they are. -/
theorem sameHeapBut_modifyArray
    (store : Store)
    (ref : ArrayRef)
    (change : Array Value → Array Value) :
    (store.modifyArray ref change).SameHeapBut store ref where
  size := Array.size_modify
  arrays _ differs := Store.array_modifyArray_of_ne differs store change
  objects := rfl

/-- A call of `push` with a known array puts the arguments at its end. -/
theorem does_push
    {items : List Value}
    {position : Option Position}
    (known : ref.index < m.store.arrays.size)
    (atHand : m.control = .apply (.method (.array ref) .push) items position) :
    m.Does ref (.push items) m.step := by
  cases items with
  | nil =>
    have fails : m.step = m.fail position (.tooFew "push" 1 0) := by
      rw [step, atHand]
      rfl
    rw [fails]
    refine .fails (fun result after goes => ?_) rfl rfl
    cases goes with
    | push nonempty => exact nonempty rfl
  | cons item items =>
    have pushed : m.step =
        { m with
          control := .give (.number (Float.ofNat
            ((m.store.modifyArray ref (· ++ item :: items)).array ref).size))
          store := m.store.modifyArray ref (· ++ item :: items) } := by
      rw [step, atHand]
      rfl
    rw [pushed]
    refine .goes ?_ rfl (sameHeapBut_modifyArray _ _ _)
    rw [Store.array_modifyArray_self known, ← Array.length_toList, Array.toList_appendList]
    exact .push (List.cons_ne_nil item items)

/-- A call of `pop` with a known array takes its last item away and gives it. -/
theorem does_pop
    {arguments : List Value}
    {position : Option Position}
    (known : ref.index < m.store.arrays.size)
    (atHand : m.control = .apply (.method (.array ref) .pop) arguments position) :
    m.Does ref .pop m.step := by
  cases last : (m.store.array ref).back? with
  | none =>
    have empty : m.store.array ref = #[] := by simpa using last
    have fails : m.step = m.fail position .popEmpty := by
      rw [step, atHand]
      simp only [apply, Method.perform, Method.runArray, last]
      rfl
    rw [fails]
    refine .fails (fun result after goes => ?_) rfl rfl
    rw [empty] at goes
    generalize nothing : ([] : List Value) = list at goes
    cases goes
    simp at nothing
  | some value =>
    have popped : m.step =
        { m with control := .give value, store := m.store.modifyArray ref Array.pop } := by
      rw [step, atHand]
      simp only [apply, Method.perform, Method.runArray, last]
      rfl
    rw [popped]
    refine .goes ?_ rfl (sameHeapBut_modifyArray _ _ _)
    rw [Store.array_modifyArray_self known]
    have split : (m.store.array ref).pop.toList ++ [value] = (m.store.array ref).toList := by
      obtain ⟨items, same⟩ := Array.back?_eq_some_iff.1 last
      simp [same]
    rw [← split]
    exact .pop

/-- The length of an array can be asked for by its method and by the function of the library. -/
theorem does_length
    (atHand : (∃ arguments position,
        m.control = .apply (.method (.array ref) .arrayLength) arguments position) ∨
      (∃ position, m.control = .apply (.native .length) [.array ref] position)) :
    m.Does ref .length m.step := by
  have gives : m.step = m.give (.number (Float.ofNat (m.store.array ref).size)) := by
    rcases atHand with ⟨arguments, position, atHand⟩ | ⟨position, atHand⟩
    all_goals
      rw [step, atHand]
      rfl
  rw [gives]
  refine .goes ?_ rfl ⟨rfl, fun _ _ => rfl, rfl⟩
  exact .length

/-- An assignment to an element of an array puts the value there, or fails. -/
theorem does_replace
    {value : Value}
    {position : Position}
    {key : Value}
    {rest : List Frame}
    (known : ref.index < m.store.arrays.size)
    (gives : m.control = .give value)
    (onStack : m.stack = .assignValue position (.array ref) key :: rest) :
    m.Does ref (.replace key value) m.step := by
  cases placed : m.store.place (.array ref) key with
  | ok place =>
    obtain ⟨number, index, counts, found, inside, rfl⟩ := Store.place_array_iff.1 placed
    have replaced : m.step =
        { m with
          control := .give value
          stack := rest
          store := m.store.modifyArray ref (·.setIfInBounds index value) } := by
      rw [step, gives, onStack]
      simp only [resume, placed]
      rfl
    rw [replaced]
    refine .goes ?_ rfl (sameHeapBut_modifyArray _ _ _)
    rw [Store.array_modifyArray_self known]
    exact Deed.goes_replace_iff.2 ⟨number, index, counts, found, inside, rfl, by simp⟩
  | error cause =>
    have fails : m.step = ({ m with stack := rest } : Machine).fail (some position) cause := by
      rw [step, gives, onStack]
      simp only [resume, placed]
    rw [fails]
    refine .fails (fun result after goes => ?_) rfl rfl
    obtain ⟨number, index, counts, found, inside, -, -⟩ := Deed.goes_replace_iff.1 goes
    have allowed := Store.place_array_iff.2 ⟨number, index, counts, found, inside, rfl⟩
    cases placed.symm.trans allowed

/-- The next step does the deed that is at hand. -/
theorem does_step
    (known : ref.index < m.store.arrays.size)
    (atHand : m.deed? ref = some deed) :
    m.Does ref deed m.step := by
  rcases cases_of_deed? atHand with
    ⟨items, position, pushes, rfl⟩ | ⟨arguments, position, pops, rfl⟩ | ⟨counts, rfl⟩ |
      ⟨value, position, key, rest, gives, onStack, rfl⟩
  · exact does_push known pushes
  · exact does_pop known pops
  · exact does_length counts
  · exact does_replace known gives onStack

/-- Only a deed changes an array. -/
theorem Writes.array_of_deed?
    {later : Store}
    (writes : m.Writes later)
    (known : ref.index < m.store.arrays.size)
    (idle : m.deed? ref = none) :
    later.array ref = m.store.array ref := by
  cases writes with
  | keep same => exact same.array ref
  | makeArray items same => rw [same.array, Store.array_newArray_of_lt known]
  | makeObject fields same =>
    rw [same.array]
    rfl
  | @push other items position atHand same =>
    have differs : other ≠ ref := by
      rintro rfl
      simp [deed?, atHand] at idle
    rw [same.array, Store.array_modifyArray_of_ne differs.symm]
  | @pop other arguments position atHand same =>
    have differs : other ≠ ref := by
      rintro rfl
      simp [deed?, atHand] at idle
    rw [same.array, Store.array_modifyArray_of_ne differs.symm]
  | @put value position subject key rest place gives onStack placed same =>
    rw [same.array]
    cases place with
    | property => rfl
    | item other index =>
      have differs : ref ≠ other := by
        rintro rfl
        obtain rfl := Store.eq_owner_of_place placed
        simp [deed?, gives, onStack, Place.owner] at idle
      exact Store.array_modifyArray_of_ne differs _ _

/-- The deeds of a run that is one machine longer are those before it and that of the last
machine. -/
theorem deedsOn_append_singleton
    (ref : ArrayRef)
    (passed : List Machine)
    (m : Machine) :
    deedsOn ref (passed ++ [m]) =
      deedsOn ref passed ++ ((m.deed? ref).map fun deed => (deed, m.step.given?)).toList := by
  rw [deedsOn, List.filterMap_append]
  cases atHand : m.deed? ref with
  | none => simp [deedsOn, atHand]
  | some deed => simp [deedsOn, atHand]

/-- All that has been done to an array in a course are the deeds on it, one after the other. -/
theorem replay_deedsOn
    {State : Type}
    {host : Host State}
    {start m : Machine}
    {passed : List Machine}
    {ref : ArrayRef}
    (installed : start.Installed)
    (known : ref.index < start.store.arrays.size)
    (course : Course host start passed m) :
    Deed.Replay (deedsOn ref passed) (start.store.array ref).toList (m.store.array ref).toList := by
  induction course with
  | start => exact .none
  | @advance passed m state course ih =>
    have stillKnown := Nat.lt_of_lt_of_le known (course.size_le installed).1
    rw [deedsOn_append_singleton]
    cases atHand : m.deed? ref with
    | none =>
      have writes := (course.installed installed).writes_advance host state
      simpa [writes.array_of_deed? stillKnown atHand] using ih
    | some deed =>
      rw [advance_eq_step (request?_of_deed? atHand)]
      cases does_step stillKnown atHand with
      | goes goes gives _ =>
        simp only [given?, gives, Option.map_some, Option.toList_some]
        exact .goes ih goes
      | fails fails failed same =>
        simp only [given?, failed, Option.map_some, Option.toList_some, same]
        exact .fails ih fails
  | turn _ same _ ih => rwa [same.array]

/-- An array refines a list.  Let there be an array at the beginning of a course of runs.  All that
programs have done to it by then are pushes, pops, questions for its length and assignments to its
items, through whatever they hold it by: done one after the other to the list that the array held at
the beginning, they give the values that they gave to the programs, fail where those failed, and
leave the list that the array holds now.  A deed that is at hand next goes on the array as on that
list and changes no other array and no object; if it does not go on the list, it fails and changes
nothing at all.  Any other step leaves the list alone. -/
theorem array_refines_list
    {State : Type}
    {host : Host State}
    {start m : Machine}
    {passed : List Machine}
    {ref : ArrayRef}
    (installed : start.Installed)
    (known : ref.index < start.store.arrays.size)
    (course : Course host start passed m) :
    let items := (m.store.array ref).toList
    Deed.Replay (deedsOn ref passed) (start.store.array ref).toList items ∧
    (∀ deed, m.deed? ref = some deed →
      (∀ result after, deed.Goes items result after →
        m.step.control = .give result ∧ (m.step.store.array ref).toList = after ∧
          m.step.store.SameHeapBut m.store ref) ∧
      ((∀ result after, ¬ deed.Goes items result after) →
        (∃ fault, m.step.control = .failed fault) ∧ m.step.store = m.store)) ∧
    (m.deed? ref = none → ∀ state, (m.advance host state).1.store.array ref = m.store.array ref) ∧
    ∀ place ∈ [("push", Method.push), ("pop", Method.pop), ("length", Method.arrayLength)],
      m.store.member (.array ref) (.string place.1) = .ok (.method (.array ref) place.2) := by
  intro items
  have stillKnown := Nat.lt_of_lt_of_le known (course.size_le installed).1
  refine ⟨replay_deedsOn installed known course, fun deed atHand => ?_, fun idle state => ?_, ?_⟩
  · have does := does_step stillKnown atHand
    constructor
    · intro result after goes
      cases does with
      | goes went gives but =>
        obtain ⟨rfl, rfl⟩ := goes.unique went
        exact ⟨gives, rfl, but⟩
      | fails never => exact absurd goes (never result after)
    · intro never
      cases does with
      | goes goes => exact absurd goes (never _ _)
      | fails _ failed same => exact ⟨⟨_, failed⟩, same⟩
  · exact ((course.installed installed).writes_advance host state).array_of_deed? stillKnown idle
  · simp only [List.forall_mem_cons]
    exact ⟨rfl, rfl, rfl, List.forall_mem_nil _⟩

/-- An array is pushed into itself, an item that it does not have is assigned to in vain, its first
item is assigned to by the text of a fraction, and then it gives itself back. -/
theorem array_refines_list_of_self :
    let host : Host Unit :=
      { readLine := fun _ => ([], ())
        clock := fun _ => (0, ())
        random := fun _ => (0, ())
        call := fun _ _ _ store _ => (.ok .null, store, ()) }
    let holding := fun items : Array Value => { Store.empty with arrays := #[items, #[.number 5]] }
    let call := fun method arguments items =>
      ofCall (.method (.array ⟨0⟩) method) arguments ⟨0⟩ (holding items)
    let assign := fun key value items =>
      let frame := Frame.assignValue { line := 0, column := 0, offset := 0 } (.array ⟨0⟩) key
      ({ control := .give value, scope := ⟨0⟩, stack := [frame], store := holding items } : Machine)
    let push := call .push [.array ⟨0⟩] #[.number 1]
    let miss := assign (.number 7) .null #[.number 1, .array ⟨0⟩]
    let replace := assign (.string "0.5") (.bool true) #[.number 1, .array ⟨0⟩]
    let pop := call .pop [] #[.bool true, .array ⟨0⟩]
    push.Installed ∧ 0 < push.store.arrays.size ∧
      ∃ last, Course host push [push, miss, replace, pop] last ∧
        Deed.Replay
          [(.push [.array ⟨0⟩], some (.number 2)),
           (.replace (.number 7) .null, none),
           (.replace (.string "0.5") (.bool true), some (.bool true)),
           (.pop, some (.array ⟨0⟩))]
          [.number 1] (last.store.array ⟨0⟩).toList ∧
        last.store.array ⟨0⟩ = #[.bool true] ∧ last.store.array ⟨1⟩ = #[.number 5] := by
  intro host holding call assign push miss replace pop
  have installed : ∀ {items}, (∀ item ∈ items, Value.Installed item) →
      (holding items).Installed := by
    intro items each
    exact ⟨by simp [holding, Store.empty], by simpa [holding, Value.Installed] using each,
      by simp [holding, Store.empty]⟩
  have pushes : push.Installed :=
    ⟨⟨trivial, by simp [Value.Installed]⟩, by simp [push, call, ofCall],
      installed (by simp [Value.Installed])⟩
  have misses : miss.Installed :=
    ⟨trivial, by simp [miss, assign, Frame.All, Value.Installed],
      installed (by simp [Value.Installed])⟩
  have replaces : replace.Installed :=
    ⟨trivial, by simp [replace, assign, Frame.All, Value.Installed],
      installed (by simp [Value.Installed])⟩
  have pops : pop.Installed :=
    ⟨⟨trivial, by simp⟩, by simp [pop, call, ofCall], installed (by simp [Value.Installed])⟩
  have toMiss : Course host push [push] miss :=
    (Course.advance () .start).turn ⟨rfl, rfl⟩ misses
  have toReplace : Course host push [push, miss] replace :=
    (toMiss.advance ()).turn ⟨rfl, rfl⟩ replaces
  have toPop : Course host push [push, miss, replace] pop :=
    (toReplace.advance ()).turn ⟨rfl, rfl⟩ pops
  have popped : Course host push [push, miss, replace, pop] (pop.advance host ()).1 :=
    toPop.advance ()
  have known : (⟨0⟩ : ArrayRef).index < push.store.arrays.size := by decide
  have refines := array_refines_list pushes known popped
  exact ⟨pushes, known, _, popped, refines.1, rfl, rfl⟩

end Machine
end TinyScript
