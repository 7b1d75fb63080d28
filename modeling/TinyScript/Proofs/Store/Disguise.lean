import TinyScript.Proofs.Store.Depth
import TinyScript.Session

/-!
# Disguised values

No operation looks into a function of a program, but to show its head and to count its parameters,
and none compares references.  So operators, member access, the texts of values and the functions
of the library do the same where such functions have other code, or have been made in other scopes,
and where arrays and objects stand at other places.  So do their faults, which name types and
numbers only.
-/

namespace TinyScript

/-! ## Tables -/

/-- A table with its values changed. -/
def Table.map {α β : Type} (change : α → β) (table : Table α) : Table β :=
  { entries := table.entries.map fun entry => (entry.1, change entry.2) }

namespace Table

variable {α β : Type}

@[simp] theorem map_empty
    (change : α → β) :
    (empty : Table α).map change = empty :=
  rfl

@[simp] theorem map_id :
    map (id : α → α) = id := by
  funext table
  simp [map]

/-- A change that changes none of its values leaves a table as it is. -/
theorem map_of_forall
    {change : α → α}
    {table : Table α}
    (same : ∀ entry ∈ table.entries, change entry.2 = entry.2) :
    table.map change = table := by
  obtain ⟨entries⟩ := table
  have each : ∀ entry ∈ entries, (entry.1, change entry.2) = id entry :=
    fun entry mem => Prod.ext rfl (same entry mem)
  simp only [map, mk.injEq]
  exact (List.map_congr_left each).trans (List.map_id entries)

/-- The values of a table are changed beside their keys. -/
@[simp] theorem entries_map
    (change : α → β)
    (table : Table α) :
    (table.map change).entries = table.entries.map fun entry => (entry.1, change entry.2) :=
  rfl

/-- A key has the changed value in a changed table. -/
@[simp] theorem find?_map
    (change : α → β)
    (table : Table α)
    (key : String) :
    (table.map change).find? key = (table.find? key).map change := by
  obtain ⟨entries⟩ := table
  simp only [find?, map]
  induction entries with
  | nil => rfl
  | cons entry entries ih =>
    rw [List.map_cons, List.lookup_cons, List.lookup_cons, ih]
    cases key == entry.1 <;> rfl

/-- A value may be changed before it is inserted or with the others behind that. -/
theorem insert_map
    (change : α → β)
    (table : Table α)
    (key : String)
    (value : α) :
    (table.map change).insert key (change value) = (table.insert key value).map change := by
  obtain ⟨entries⟩ := table
  simp only [insert, map, mk.injEq]
  induction entries with
  | nil => rfl
  | cons entry entries ih =>
    rw [List.map_cons, insertEntry, insertEntry, ih]
    split <;> rfl

/-- A table keeps its keys. -/
@[simp] theorem keys_map
    (change : α → β)
    (table : Table α) :
    (table.map change).keys = table.keys := by
  simp [keys, map]

/-- Each value of a table is changed. -/
@[simp] theorem values_map
    (change : α → β)
    (table : Table α) :
    (table.map change).values = table.values.map change := by
  simp [values, map]

/-- A table keeps its size. -/
@[simp] theorem size_map
    (change : α → β)
    (table : Table α) :
    (table.map change).size = table.size := by
  simp [size, map]

end Table

/-! ## Changes that do not show in arithmetic -/

/-- Only numbers have the type of numbers. -/
theorem Value.exists_eq_number
    {value : Value}
    (isNumber : value.typeTag = .number) :
    ∃ x, value = .number x := by
  cases value with
  | number x => exact ⟨x, rfl⟩
  | _ => cases isNumber

/-- Of two values that are not both numbers, an operation regards the types and the texts. -/
theorem Store.arithmetic_of_not_numbers
    {left right : Value}
    (other : ¬ (left.typeTag = .number ∧ right.typeTag = .number))
    (store : Store)
    (op : Arithmetic) :
    store.arithmetic op left right =
      if op = .add ∧ (left.typeTag = .string ∨ right.typeTag = .string) then
        .ok (.string (store.display left ++ store.display right))
      else
        .error (.unsupported left.typeTag op right.typeTag) := by
  unfold arithmetic
  split
  · exact absurd ⟨rfl, rfl⟩ other
  · rfl

/-- An operation does the same to changed values if their types are kept, and the texts of those
that are joined. -/
theorem Store.arithmetic_change
    {store image : Store}
    {change : Value → Value}
    (typeTag : ∀ value, (change value).typeTag = value.typeTag)
    (number : ∀ x, change (.number x) = .number x)
    (string : ∀ text, change (.string text) = .string text)
    {op : Arithmetic}
    {left right : Value}
    (shown : op = .add → left.typeTag = .string ∨ right.typeTag = .string →
      image.display (change left) = store.display left ∧
        image.display (change right) = store.display right) :
    image.arithmetic op (change left) (change right) =
      (store.arithmetic op left right).map change := by
  by_cases numbers : left.typeTag = .number ∧ right.typeTag = .number
  · obtain ⟨a, rfl⟩ := Value.exists_eq_number numbers.1
    obtain ⟨b, rfl⟩ := Value.exists_eq_number numbers.2
    simp only [number, arithmetic, Except.map]
  · have changed : ¬ ((change left).typeTag = .number ∧ (change right).typeTag = .number) := by
      rwa [typeTag, typeTag]
    rw [arithmetic_of_not_numbers changed, arithmetic_of_not_numbers numbers, typeTag, typeTag]
    split
    · rename_i joins
      obtain ⟨ofLeft, ofRight⟩ := shown joins.1 joins.2
      rw [ofLeft, ofRight, Except.map, string]
    · rfl

/-! ## Disguises -/

/-- A change of the code of functions, of the scopes that they were made in, and of the places of
arrays and objects, which does not show. -/
structure Disguise where
  code : Function → Function
  place : ScopeRef → ScopeRef
  array : ArrayRef → ArrayRef
  object : ObjectRef → ObjectRef
  name : ∀ function, (code function).name = function.name
  arity : ∀ function, (code function).parameters.length = function.parameters.length
  display : ∀ function, (code function).display = function.display

variable (guise : Disguise)

/-- A value in disguise. -/
def Value.disguise : Value → Value
  | .array ref => .array (guise.array ref)
  | .object ref => .object (guise.object ref)
  | .function made captured => .function (guise.code made) (guise.place captured)
  | .method receiver member => .method receiver.disguise member
  | value => value

/-- A question about disguised values. -/
def Request.disguise : Request → Request
  | .host name arguments scope =>
    .host name (arguments.map (Value.disguise guise)) (guise.place scope)
  | request => request

/-- An action on disguised values. -/
def Action.disguise : Action → Action
  | .yield value => .yield (value.disguise guise)
  | .make items => .make (items.map (Value.disguise guise))
  | .push ref items => .push (guise.array ref) (items.map (Value.disguise guise))
  | .pop ref last => .pop (guise.array ref) (last.disguise guise)
  | .print line => .print line
  | .ask prompt request => .ask prompt (request.disguise guise)
  | .apply callee arguments =>
    .apply (callee.disguise guise) (arguments.map (Value.disguise guise))
  | .exit status => .exit status

/-- A place that is written, where the array or object stands in disguise. -/
def Place.disguise : Place → Place
  | .item ref index => .item (guise.array ref) index
  | .property ref key => .property (guise.object ref) key

/-- A store has the arrays and objects of another one, at their places in disguise and with
disguised values in them. -/
structure Store.Disguised (store image : Store) : Prop where
  array : ∀ ref, image.array (guise.array ref) = (store.array ref).map (Value.disguise guise)
  object : ∀ ref, image.object (guise.object ref) = (store.object ref).map (Value.disguise guise)
  knownArray : ∀ ref, (guise.array ref).index < image.arrays.size ↔ ref.index < store.arrays.size
  knownObject :
    ∀ ref, (guise.object ref).index < image.objects.size ↔ ref.index < store.objects.size

variable {guise} in
/-- Where arrays and objects keep their places, only what is in them is disguised. -/
theorem Store.Disguised.of_map
    {store image : Store}
    (array : guise.array = id)
    (object : guise.object = id)
    (arrays : image.arrays = store.arrays.map (Array.map (Value.disguise guise)))
    (objects : image.objects = store.objects.map (Table.map (Value.disguise guise))) :
    store.Disguised guise image where
  array ref := by
    simp only [array, id, Store.array, arrays, Array.getElem?_map]
    cases store.arrays[ref.index]? <;> simp
  object ref := by
    simp only [object, id, Store.object, objects, Array.getElem?_map]
    cases store.objects[ref.index]? <;> rfl
  knownArray ref := by simp [array, arrays]
  knownObject ref := by simp [object, objects]

/-! ## Values -/

namespace Value

/-- A value keeps its type. -/
@[simp] theorem typeTag_disguise
    (value : Value) :
    (value.disguise guise).typeTag = value.typeTag := by
  cases value <;> rfl

@[simp] theorem string?_disguise
    (value : Value) :
    (value.disguise guise).string? = value.string? := by
  cases value <;> rfl

/-- Values are equal under a disguise just when they are without it. -/
@[simp] theorem equals_disguise
    (left right : Value) :
    (left.disguise guise).equals (right.disguise guise) = left.equals right := by
  cases left <;> cases right <;> rfl

end Value

/-- A key is the same text. -/
@[simp] theorem Store.keyText_disguise
    (key : Value) :
    keyText (key.disguise guise) = keyText key := by
  cases key <;> rfl

/-- A key is the same number. -/
@[simp] theorem Store.indexNumber_disguise
    (key : Value) :
    indexNumber (key.disguise guise) = indexNumber key := by
  cases key <;> rfl

/-- An edit of one item may be made before all of them are changed or behind that. -/
theorem Store.modify_map_of_commutes
    {α : Type}
    {recode edit edit' : α → α}
    (commutes : ∀ item, edit' (recode item) = recode (edit item))
    {items : Array α}
    {index : Nat} :
    (items.map recode).modify index edit' = (items.modify index edit).map recode := by
  ext place
  · simp
  · simp only [Array.getElem_modify, Array.getElem_map]
    split
    · rw [commutes]
    · rfl

namespace Store.Disguised

variable {guise : Disguise} {store image : Store} (disguised : store.Disguised guise image)

include disguised

/-! ## Values as text -/

/-- A value has the same text in the image of the store, to any depth. -/
theorem renderUpTo
    (depth : Nat)
    (quoted : Bool)
    (value : Value) :
    image.renderUpTo depth quoted (value.disguise guise) =
      store.renderUpTo depth quoted value := by
  induction depth generalizing quoted value with
  | zero => cases value <;> simp [Value.disguise, Store.renderUpTo, guise.display]
  | succ depth ih =>
    cases value <;>
      simp [Value.disguise, Store.renderUpTo, guise.display, disguised.array, disguised.object,
        ih, Function.comp_def]

/-- Disguised values are nested as deep as they are without it. -/
theorem nestsUpTo
    (depth : Nat)
    (value : Value) :
    image.NestsUpTo depth (value.disguise guise) ↔ store.NestsUpTo depth value := by
  induction depth generalizing value with
  | zero => cases value <;> exact Iff.rfl
  | succ depth ih =>
    cases value with
    | array ref =>
      simp [Value.disguise, Store.NestsUpTo, disguised.array, disguised.knownArray, ih]
    | object ref =>
      simp [Value.disguise, Store.NestsUpTo, disguised.object, disguised.knownObject, ih]
    | _ => exact Iff.rfl

/-- A disguised value has the same text, even where there are more arrays and objects. -/
theorem renderUpTo_textDepth
    (quoted : Bool)
    (value : Value) :
    image.renderUpTo (image.textDepth (value.disguise guise)) quoted (value.disguise guise) =
      store.renderUpTo (store.textDepth value) quoted value := by
  rw [disguised.renderUpTo]
  by_cases nested : store.NestsUpTo store.depthLimit value
  · have nestedToo := (disguised.nestsUpTo _ value).2 nested
    rw [nested.textDepth_eq, nestedToo.textDepth_eq]
    have back := (disguised.nestsUpTo _ value).1 nestedToo.upTo_depthLimit
    rw [← nested.renderUpTo_eq (Nat.le_max_left _ image.depthLimit),
      back.renderUpTo_eq (Nat.le_max_right _ _)]
  · have nestedNot : ¬ image.NestsUpTo image.depthLimit (value.disguise guise) := fun nestedToo =>
      nested ((disguised.nestsUpTo _ value).1 nestedToo).upTo_depthLimit
    rw [Store.textDepth, if_neg nestedNot, Store.textDepth, if_neg nested]

/-- A value is shown alike in the image of the store. -/
theorem display
    (value : Value) :
    image.display (value.disguise guise) = store.display value :=
  disguised.renderUpTo_textDepth false value

/-- A value is written alike in the image of the store. -/
theorem repr
    (value : Value) :
    image.repr (value.disguise guise) = store.repr value :=
  disguised.renderUpTo_textDepth true value

/-- A value counts as true in the image of the store just when it does in the store. -/
theorem isTruthy
    (value : Value) :
    image.isTruthy (value.disguise guise) = store.isTruthy value := by
  cases value <;>
    simp [Value.disguise, Store.isTruthy, disguised.array, disguised.object, Array.isEmpty]

/-! ## Operators and members -/

/-- Arithmetic does the same in the image of the store. -/
theorem arithmetic
    (op : Arithmetic)
    (left right : Value) :
    image.arithmetic op (left.disguise guise) (right.disguise guise) =
      (store.arithmetic op left right).map (Value.disguise guise) :=
  arithmetic_change (Value.typeTag_disguise guise) (fun _ => rfl) (fun _ => rfl)
    fun _ _ => ⟨disguised.display left, disguised.display right⟩

/-- An operator does the same in the image of the store. -/
theorem binary
    (op : BinaryOp)
    (left right : Value) :
    image.binary op (left.disguise guise) (right.disguise guise) =
      (store.binary op left right).map (Value.disguise guise) := by
  cases op with
  | arithmetic op => exact disguised.arithmetic op left right
  | equal => simp [Store.binary, Except.map, Value.disguise]
  | notEqual => simp [Store.binary, Except.map, Value.disguise]
  | comparison op => cases left <;> cases right <;> rfl

/-- An operator with one operand does the same in the image of the store. -/
theorem unary
    (op : UnaryOp)
    (operand : Value) :
    image.unary op (operand.disguise guise) =
      (store.unary op operand).map (Value.disguise guise) := by
  cases op with
  | not => simp [Store.unary, Except.map, disguised.isTruthy, Value.disguise]
  | plus => cases operand <;> rfl
  | minus => cases operand <;> rfl

/-- A property or item of a value is that of the value in disguise. -/
theorem own?
    (subject : Value)
    (key : String) :
    image.own? (subject.disguise guise) key =
      (store.own? subject key).map (Value.disguise guise) := by
  cases subject with
  | array ref =>
    simp only [Value.disguise, Store.own?, disguised.array, Array.getElem?_map, Option.map_bind]
    rfl
  | object ref => simp only [Value.disguise, Store.own?, disguised.object, Table.find?_map]
  | _ => rfl

/-- A member of a value is that of the value in disguise. -/
theorem member
    (subject key : Value) :
    image.member (subject.disguise guise) (key.disguise guise) =
      (store.member subject key).map (Value.disguise guise) := by
  unfold Store.member
  rw [keyText_disguise]
  cases keyText key with
  | error cause => rfl
  | ok text =>
    simp only [disguised.own?, Value.typeTag_disguise, bind, Except.bind]
    cases store.own? subject text with
    | some value => rfl
    | none => cases Method.find? subject.typeTag text <;> rfl

/-- Assignments go to the place in disguise. -/
theorem place
    (subject key : Value) :
    image.place (subject.disguise guise) (key.disguise guise) =
      (store.place subject key).map (Place.disguise guise) := by
  cases subject with
  | object ref =>
    simp only [Value.disguise, Store.place, keyText_disguise]
    cases keyText key <;> rfl
  | array ref =>
    simp only [Value.disguise, Store.place, indexNumber_disguise, disguised.array, Array.size_map]
    cases indexNumber key with
    | error cause => rfl
    | ok number =>
      simp only [bind, Except.bind]
      cases Number.index? number with
      | none => rfl
      | some index =>
        dsimp only
        split <;> rfl
  | _ => rfl

end Store.Disguised

/-! ## Functions of the library -/

namespace Arguments

@[simp] theorem number_disguise
    (name : String)
    (value : Value) :
    number name (value.disguise guise) = number name value := by
  cases value <;> rfl

@[simp] theorem string_disguise
    (name : String)
    (value : Value) :
    string name (value.disguise guise) = string name value := by
  cases value <;> rfl

/-- A function that takes one argument takes it in disguise. -/
theorem single_disguise
    (name : String)
    (arguments : List Value) :
    single name (arguments.map (Value.disguise guise)) =
      (single name arguments).map (Value.disguise guise) := by
  match arguments with
  | [] => rfl
  | [value] => rfl
  | first :: second :: rest => simp [single, Except.map]

end Arguments

namespace Native

@[simp] theorem toNumber_disguise
    (value : Value) :
    toNumber (value.disguise guise) = toNumber value := by
  cases value <;> rfl

/-- The least and the greatest of some numbers are the same. -/
@[simp] theorem foldNumbers_disguise
    (name : String)
    (pick : Float → Float → Float)
    (start : Float)
    (arguments : List Value) :
    foldNumbers name pick start (arguments.map (Value.disguise guise)) =
      foldNumbers name pick start arguments := by
  simp [foldNumbers, List.foldlM_map]

/-- What folding numbers gives has no functions in it. -/
theorem yield_foldNumbers
    (name : String)
    (pick : Float → Float → Float)
    (start : Float)
    (arguments : List Value) :
    (foldNumbers name pick start arguments >>= fun value => pure (.yield value)).map
        (Action.disguise guise) =
      foldNumbers name pick start arguments >>= fun value => pure (.yield value) := by
  have atNumber : ∀ result : Except Fault.Cause Float,
      ((result >>= fun number => pure (Value.number number)) >>=
          fun value => pure (Action.yield value)).map (Action.disguise guise) =
        (result >>= fun number => pure (Value.number number)) >>=
          fun value => pure (Action.yield value) := by
    intro result
    cases result <;> rfl
  exact atNumber _

/-- A program exits with the same status. -/
@[simp] theorem exitStatus_disguise
    (arguments : List Value) :
    exitStatus (arguments.map (Value.disguise guise)) = exitStatus arguments := by
  match arguments with
  | [] => rfl
  | [value] => simp [exitStatus]
  | first :: second :: rest => simp [exitStatus]

theorem headD_disguise
    (arguments : List Value) :
    (arguments.map (Value.disguise guise)).headD .undefined =
      (arguments.headD .undefined).disguise guise := by
  cases arguments <;> rfl

theorem getD_disguise
    (arguments : List Value)
    (index : Nat) :
    (arguments.map (Value.disguise guise)).getD index .undefined =
      (arguments.getD index .undefined).disguise guise := by
  simp only [List.getD_eq_getElem?_getD, List.getElem?_map]
  cases arguments[index]? <;> rfl

end Native

namespace Store.Disguised

variable {guise : Disguise} {store image : Store} (disguised : store.Disguised guise image)

include disguised

/-- The length of a value is the same in the image of the store. -/
theorem lengthOf
    (value : Value) :
    Native.lengthOf image (value.disguise guise) = Native.lengthOf store value := by
  cases value <;>
    simp [Value.disguise, Native.lengthOf, disguised.array, disguised.object, Value.typeTag]

/-- A function of the library does in the image of the store what it does in the store, in
disguise. -/
theorem run
    (native : Native)
    (arguments : List Value)
    (scope : ScopeRef) :
    native.run (arguments.map (Value.disguise guise)) (guise.place scope) image =
      (native.run arguments scope store).map (Action.disguise guise) := by
  unfold Native.run
  simp only [Native.headD_disguise, Native.getD_disguise]
  generalize arguments.headD .undefined = first
  generalize arguments.getD 1 .undefined = second
  cases native with
  | length =>
    simp only [disguised.lengthOf]
    cases Native.lengthOf store first <;> rfl
  | exit =>
    simp only [Native.exitStatus_disguise]
    cases Native.exitStatus arguments <;> rfl
  | print =>
    simp [pure, Except.pure, Except.map, Action.disguise, disguised.display, Function.comp_def]
  | math function =>
    simp only [Arguments.number_disguise]
    cases Arguments.number function.name first <;> rfl
  | min =>
    simp only [Native.foldNumbers_disguise]
    exact (Native.yield_foldNumbers guise "min" Native.lesser Number.infinity arguments).symm
  | max =>
    simp only [Native.foldNumbers_disguise]
    exact (Native.yield_foldNumbers guise "max" Native.greater (-Number.infinity) arguments).symm
  | pow =>
    simp only [Arguments.number_disguise]
    cases Arguments.number "pow" first with
    | error cause => rfl
    | ok base => cases Arguments.number "pow" second <;> rfl
  | _ =>
    simp [pure, Except.pure, Except.map, Action.disguise, Request.disguise, Value.disguise,
      disguised.display]

/-- A function of the library takes as many arguments in the image of the store. -/
theorem perform
    (native : Native)
    (arguments : List Value)
    (scope : ScopeRef) :
    native.perform (arguments.map (Value.disguise guise)) (guise.place scope) image =
      (native.perform arguments scope store).map (Action.disguise guise) := by
  unfold Native.perform
  rw [List.length_map]
  split
  · exact disguised.run native arguments scope
  · split
    · exact disguised.run native arguments scope
    · rfl

end Store.Disguised

/-! ## Member functions -/

/-- A method of a text does the same with arguments in disguise. -/
theorem Method.runText_disguise
    (method : Method)
    (text : String)
    (arguments : List Value) :
    method.runText text (arguments.map (Value.disguise guise)) =
      (method.runText text arguments).map (Action.disguise guise) := by
  cases method with
  | charAt =>
    simp only [runText, Arguments.single_disguise]
    cases Arguments.single "charAt" arguments with
    | error cause => rfl
    | ok value =>
      simp only [Except.map, bind, Except.bind, Arguments.number_disguise]
      cases Arguments.number "charAt" value <;> rfl
  | substring =>
    match arguments with
    | [] => rfl
    | [start] =>
      simp only [runText, List.map_cons, List.map_nil, Arguments.number_disguise]
      cases Arguments.number "substring" start with
      | error cause => rfl
      | ok start =>
        simp only [bind, Except.bind]
        cases substringOf text.toList start (Float.ofNat text.length) <;> rfl
    | [start, stop] =>
      simp only [runText, List.map_cons, List.map_nil, Arguments.number_disguise]
      cases Arguments.number "substring" start with
      | error cause => rfl
      | ok start =>
        cases Arguments.number "substring" stop with
        | error cause => rfl
        | ok stop =>
          simp only [bind, Except.bind]
          cases substringOf text.toList start stop <;> rfl
    | first :: second :: third :: rest => rfl
  | split =>
    simp only [runText, Arguments.single_disguise]
    cases Arguments.single "split" arguments with
    | error cause => rfl
    | ok value =>
      simp only [Except.map, bind, Except.bind, Arguments.string_disguise]
      cases Arguments.string "split" value with
      | error cause => rfl
      | ok separator =>
        simp [pure, Except.pure, Action.disguise, Value.disguise, Function.comp_def]
  | _ => rfl

namespace Store.Disguised

variable {guise : Disguise} {store image : Store} (disguised : store.Disguised guise image)

include disguised

/-- Values are the same for `includes` in the image of the store just when they are in the store. -/
theorem sameText
    (left right : Value) :
    Method.sameText image (left.disguise guise) (right.disguise guise) =
      Method.sameText store left right := by
  simp [Method.sameText, disguised.repr]

/-- A method of an array does in the image of the store what it does in the store, in disguise. -/
theorem runArray
    (method : Method)
    (ref : ArrayRef)
    (arguments : List Value) :
    method.runArray (guise.array ref) (arguments.map (Value.disguise guise)) image =
      (method.runArray ref arguments store).map (Action.disguise guise) := by
  cases method with
  | arrayLength =>
    simp [Method.runArray, pure, Except.pure, Except.map, Action.disguise, Value.disguise,
      disguised.array]
  | push =>
    simp only [Method.runArray, List.isEmpty_map]
    split <;> rfl
  | pop =>
    simp only [Method.runArray, disguised.array, Array.back?_map]
    cases (store.array ref).back? <;> rfl
  | join =>
    simp only [Method.runArray, Arguments.single_disguise]
    cases Arguments.single "join" arguments with
    | error cause => rfl
    | ok value =>
      simp only [Except.map, bind, Except.bind, Arguments.string_disguise]
      cases Arguments.string "join" value with
      | error cause => rfl
      | ok separator =>
        simp [pure, Except.pure, Action.disguise, Value.disguise, disguised.array,
          disguised.display, Function.comp_def]
  | includes =>
    simp only [Method.runArray, Arguments.single_disguise]
    cases Arguments.single "includes" arguments with
    | error cause => rfl
    | ok needle =>
      simp [Except.map, bind, Except.bind, pure, Except.pure, Action.disguise, Value.disguise,
        disguised.array, disguised.sameText]
  | _ => rfl

/-- A method of an object does in the image of the store what it does in the store, in disguise. -/
theorem runObject
    (method : Method)
    (ref : ObjectRef) :
    method.runObject (guise.object ref) image = (method.runObject ref store).disguise guise := by
  cases method <;>
    simp [Method.runObject, Action.disguise, Value.disguise, disguised.object, Function.comp_def]

/-- A method does in the image of the store what it does in the store, in disguise. -/
theorem performMethod
    (method : Method)
    (receiver : Value)
    (arguments : List Value) :
    method.perform (receiver.disguise guise) (arguments.map (Value.disguise guise)) image =
      (method.perform receiver arguments store).map (Action.disguise guise) := by
  have shown :
      Method.runDisplay (receiver.disguise guise) (arguments.map (Value.disguise guise))
          image =
        (Method.runDisplay receiver arguments store).map (Action.disguise guise) := by
    simp only [Method.runDisplay, List.isEmpty_map, List.length_map, disguised.display]
    split <;> rfl
  cases receiver with
  | string text => exact method.runText_disguise guise text arguments
  | array ref => exact disguised.runArray method ref arguments
  | object ref => exact congrArg Except.ok (disguised.runObject method ref)
  | function made captured =>
    simp only [Method.perform, Value.disguise, Method.runFunction, List.length_map,
      guise.arity, guise.name]
    split <;> rfl
  | _ => exact shown

end Store.Disguised
end TinyScript
