import TinyScript.Proofs.Grammar.Literals
import TinyScript.Proofs.Machine.Literals
import TinyScript.Proofs.Token.Rendering

/-!
# Data are read back

The text of data, run as a source of its own in a session with the library, ends in a value that
is like the data and has the same text again.
-/

namespace TinyScript

open Token Grammar

/-! ## The text of data as a literal -/

/-- A text is cut into tokens that are read as an expression which builds a value. -/
structure Literal (store : Store) (value : Value) (text : List Char) (tokens : List Token)
    (expr : Expr) : Prop where
  cuts : Cuts text tokens Breaks
  spells : SpellsValue tokens expr
  builds : expr.Builds store value

variable {store : Store}

theorem literal_null :
    Literal store .null "null".toList [ofWord "null"] (.name .start "null") where
  cuts := cuts_word rfl
  spells := (legible_name .start ⟨rfl, rfl⟩).spellsValue
  builds := builds_null

theorem literal_undefined :
    Literal store .undefined "undef".toList [ofWord "undef"] (.undefined .start) where
  cuts := cuts_word rfl
  spells := (legible_undefined .start).spellsValue
  builds := builds_undefined

/-- A truth value is written as the literal for it. -/
theorem literal_bool
    (value : Bool) :
    ∃ tokens, Literal store (.bool value) (if value then "true" else "false").toList tokens
      (.bool .start value) := by
  refine ⟨_, ?_, (legible_bool .start value).spellsValue, builds_bool value⟩
  cases value with
  | false => exact cuts_word rfl
  | true => exact cuts_word rfl

/-- A text without single quotes, backslashes and opening braces is written as the literal for
it. -/
theorem literal_string
    {text : String}
    (plain : ∀ c ∈ text.toList, c ≠ '\'' ∧ c ≠ '\\' ∧ c ≠ '\x7b') :
    Literal store (.string text) ('\'' :: (text.toList ++ ['\''])) [ofString text]
      (.text .start text) where
  cuts := (cuts_string fun c mem => ⟨(plain c mem).1, (plain c mem).2.1⟩).anywhere
  spells := (legible_text .start text).spellsValue
  builds := builds_text fun c mem => (plain c mem).2.2

/-! ### Integers -/

/-- The digits of a natural number are a numeral. -/
theorem isNumeral_toDigits
    (m : Nat) :
    isNumeral (Nat.toDigits 10 m) = true := by
  have numeral := isNumeral_of_digits Nat.toDigits_ne_nil (Number.isDigit_toDigits m)
    (fun _ mem => absurd mem List.not_mem_nil) (.inl rfl)
  simpa using numeral

section Integers

variable {x : Float} {m : Nat} (small : m < Number.integerLimit)

include small

/-- A number that is equal to a natural one is written as a numeral. -/
theorem literal_ofNat
    (equal : (x == Float.ofNat m) = true) :
    Literal store (.number x) (Nat.toDigits 10 m) [ofNumeral (Nat.toDigits 10 m)]
      (.number .start (Float.ofNat m)) where
  cuts := cuts_numeral (isNumeral_toDigits m)
  spells := spellsValue_numeral (Number.read?_toDigits small)
  builds := builds_number equal

/-- A number below zero is written as a numeral with a minus sign, which is an operator. -/
theorem literal_negative
    (equal : (x == -Float.ofNat m) = true) :
    Literal store (.number x) ('-' :: Nat.toDigits 10 m)
      [ofOperator "-", ofNumeral (Nat.toDigits 10 m)]
      (.unary .start .minus (.number .start (Float.ofNat m))) where
  cuts := cuts_negative (isNumeral_toDigits m)
  spells := spellsValue_negative (Number.read?_toDigits small)
  builds := builds_negative equal

end Integers

/-- A whole number that is not too large is written as an expression for it. -/
theorem exists_literal_number
    {x : Float}
    {n : Int}
    (small : n.natAbs < Number.integerLimit)
    (equal : (x == Float.ofInt n) = true) :
    ∃ tokens expr, Literal store (.number x) (Number.display x).toList tokens expr := by
  rw [Number.display_eq_of_beq equal, Number.display_ofInt small]
  cases n with
  | ofNat m =>
    have digits : (toString (Int.ofNat m)).toList = Nat.toDigits 10 m := Nat.toList_repr
    rw [digits]
    exact ⟨_, _, literal_ofNat small equal⟩
  | negSucc m =>
    have digits : (toString (Int.negSucc m)).toList = '-' :: Nat.toDigits 10 (m + 1) := by
      change ("-" ++ (m + 1).repr).toList = _
      rw [String.toList_append, Nat.toList_repr]
      rfl
    rw [digits]
    exact ⟨_, _, literal_negative small equal⟩

/-! ### Arrays and objects -/

section Lists

variable {text : Value → List Char} {tokens : Value → List Token} {tree : Value → Expr}

/-- An array whose items are written as literals is written as one. -/
theorem literal_array
    {ref : ArrayRef}
    (each : ∀ item ∈ (store.array ref).toList,
      Literal store item (text item) (tokens item) (tree item)) :
    Literal store (.array ref)
      ('[' :: ([',', ' '].intercalate ((store.array ref).toList.map text) ++ [']']))
      (enclosed .openBracket .closeBracket (separated ((store.array ref).toList.map tokens)))
      (.array .start ((store.array ref).toList.map tree)) where
  cuts :=
    (cuts_enclosed .openBracket .closeBracket rfl
      (cuts_separated fun item mem => (each item mem).cuts)).anywhere
  spells := spellsValue_array fun item mem => (each item mem).spells
  builds := builds_array fun item mem => (each item mem).builds

/-- A property is cut into its key, a colon and the tokens of its value. -/
theorem cuts_property
    {key : String}
    (isName : IsName key)
    {text : List Char}
    {tokens : List Token}
    (cuts : Cuts text tokens Breaks) :
    Cuts (key.toList ++ ':' :: ' ' :: text) (ofWord key :: ofMark .colon :: tokens) Breaks :=
  (cuts_word isName.1).append
    ((cuts_mark .colon).append cuts.behind_blank fun _ _ => trivial)
    fun _ _ => breaks_cons rfl _

/-- An object whose keys are names and whose values are written as literals is written as one. -/
theorem literal_object
    {ref : ObjectRef}
    (names : ∀ key ∈ (store.object ref).keys, IsName key)
    (distinct : (store.object ref).keys.Nodup)
    (each : ∀ value ∈ (store.object ref).values,
      Literal store value (text value) (tokens value) (tree value)) :
    Literal store (.object ref)
      ('\x7b' ::
        ([',', ' '].intercalate ((store.object ref).entries.map fun entry =>
          entry.1.toList ++ ':' :: ' ' :: text entry.2) ++ ['\x7d']))
      (braced (separated ((store.object ref).entries.map fun entry =>
        ofWord entry.1 :: ofMark .colon :: tokens entry.2)))
      (.object .start ((store.object ref).entries.map fun entry =>
        .mk entry.1 (tree entry.2))) where
  cuts :=
    (cuts_enclosed .openBrace .closeBrace rfl
      (cuts_separated fun _ mem => cuts_property (names _ (List.mem_map_of_mem mem))
        (each _ (List.mem_map_of_mem mem)).cuts)).anywhere
  spells := spellsValue_object (fun _ mem => names _ (List.mem_map_of_mem mem))
    fun _ mem => (each _ (List.mem_map_of_mem mem)).spells
  builds := builds_object distinct fun value mem => (each value mem).builds

end Lists

/-- Parts that have literals have them as functions of the parts. -/
theorem exists_literals
    {values : List Value}
    {text : Value → List Char}
    (each : ∀ value ∈ values, ∃ tokens expr, Literal store value (text value) tokens expr) :
    ∃ (tokens : Value → List Token) (tree : Value → Expr), ∀ value ∈ values,
      Literal store value (text value) (tokens value) (tree value) := by
  have every : ∀ value, ∃ tokens expr,
      value ∈ values → Literal store value (text value) tokens expr := by
    intro value
    by_cases mem : value ∈ values
    · obtain ⟨tokens, expr, literal⟩ := each value mem
      exact ⟨tokens, expr, fun _ => literal⟩
    · exact ⟨[], .null .start, fun mem' => absurd mem' mem⟩
  choose tokens tree literal using every
  exact ⟨tokens, tree, literal⟩

/-- The text of data is a literal that builds them. -/
theorem exists_literal
    {depth : Nat}
    {value : Value}
    (data : store.IsDataUpTo depth value) :
    ∃ tokens expr,
      Literal store value (store.renderUpTo depth true value).toList tokens expr := by
  cases value with
  | null =>
    simp only [Store.renderUpTo]
    exact ⟨_, _, literal_null⟩
  | undefined =>
    simp only [Store.renderUpTo]
    exact ⟨_, _, literal_undefined⟩
  | bool value =>
    simp only [Store.renderUpTo]
    obtain ⟨tokens, literal⟩ := literal_bool value
    exact ⟨_, _, literal⟩
  | number x =>
    simp only [Store.renderUpTo]
    obtain ⟨n, small, equal⟩ := Store.isDataUpTo_number.1 data
    exact exists_literal_number small equal
  | string text =>
    rw [Store.toList_render_string]
    exact ⟨_, _, literal_string (Store.isDataUpTo_string.1 data)⟩
  | array ref =>
    cases depth with
    | zero => exact data.elim
    | succ depth =>
      obtain ⟨tokens, tree, literals⟩ := exists_literals fun item mem =>
        exists_literal (data.2 item mem)
      rw [Store.toList_render_array]
      exact ⟨_, _, literal_array literals⟩
  | object ref =>
    cases depth with
    | zero => exact data.elim
    | succ depth =>
      obtain ⟨tokens, tree, literals⟩ := exists_literals fun value mem =>
        exists_literal (data.2.2.2 value mem)
      rw [Store.toList_render_object]
      exact ⟨_, _, literal_object data.2.1 data.2.2.1 literals⟩
  | _ => cases depth <;> exact data.elim
termination_by depth

/-! ## Running the text -/

namespace Machine

/-- A program of one expression ends with the value that the expression comes to. -/
theorem comesTo_ofProgram
    {expr : Expr}
    {scope : ScopeRef}
    {store later : Store}
    {result : Value}
    (position : Position)
    (gives :
      ({ control := .evaluate expr
         scope := scope
         stack := [.sequence []]
         store := store } : Machine).ComesTo
        { control := .give result
          scope := scope
          stack := [.sequence []]
          store := later }) :
    (ofProgram [.expr position expr] scope store).ComesTo
      { control := .give result, scope := scope, stack := [], store := later } := by
  let begun := ofProgram [.expr position expr] scope store
  let ended : Machine := { control := .give result, scope := scope, stack := [], store := later }
  have begins : begun.ComesTo begun.step := comesTo_step rfl rfl
  have enters : begun.step.ComesTo begun.step.step := comesTo_step rfl rfl
  exact begins.trans (enters.trans (gives.trans (ended.comesTo_resume result (.sequence []))))

/-- A machine that comes to its end is there from some number of steps on. -/
theorem ComesTo.exists_run
    {m later : Machine}
    (comes : m.ComesTo later)
    (ended : later.outcome?.isSome) :
    ∃ count, ∀ {State : Type} (host : Host State) (limit : Nat) (state : State), count ≤ limit →
      m.run host limit state = (later, state) := by
  obtain ⟨count, runs⟩ := comes
  refine ⟨count, fun host limit state bound => ?_⟩
  rw [run_of_le host (by rw [runs]; exact ended) bound, runs]

end Machine

namespace Session

theorem lookup_null_standard :
    standard.store.lookup standard.scope "null" = .null := by
  rfl

/-- The text of data reads back as a value that is like them, and whose text it is again. -/
theorem repr_reads_back
    {store : Store}
    {value : Value}
    (data : store.IsData value) :
    ∃ count result session,
      (∀ {State : Type} (host : Host State) (limit : Nat) (state : State), count ≤ limit →
        standard.runSource host limit (store.repr value) state =
          (.value result, session, state)) ∧
      Store.Alike store session.store value result ∧
      session.store.repr result = store.repr value := by
  obtain ⟨tokens, expr, literal⟩ := exists_literal data.upTo_depthLimit
  obtain ⟨parsed, read, same⟩ := exists_ofSource_of_cuts literal.cuts literal.spells
  obtain ⟨result, later, -, alike, gives⟩ := literal.builds parsed same
    { control := .evaluate parsed
      scope := standard.scope
      stack := [.sequence []]
      store := standard.store } lookup_null_standard
  obtain ⟨count, runs⟩ := (Machine.comesTo_ofProgram parsed.position gives).exists_run rfl
  refine ⟨count, result, { standard with store := later }, ?_, alike, (alike.repr_eq data).symm⟩
  intro State host limit state bound
  rw [runSource, ← data.upTo_depthLimit.nestsUpTo.renderUpTo_eq_repr, read]
  simp only [runProgram, runMachine, runs host limit state bound]
  rfl

/-- A negative number, a text with a bracket, a comment character and a line break, an array
without items and an object, in an array. -/
theorem repr_reads_back_of_nested :
    let store : Store :=
      { Store.empty with
        arrays := #[#[.number (-2), .string "a\n#[", .array ⟨1⟩, .object ⟨0⟩], #[]]
        objects := #[⟨[("key", .null), ("flag", .bool true)]⟩] }
    let text := "[-2, 'a\n#[', [], \x7bkey: null, flag: true\x7d]"
    store.IsData (.array ⟨0⟩) ∧ store.repr (.array ⟨0⟩) = text ∧
      ∃ count result session,
        (∀ {State : Type} (host : Host State) (limit : Nat) (state : State), count ≤ limit →
          standard.runSource host limit text state = (.value result, session, state)) ∧
        Store.Alike store session.store (.array ⟨0⟩) result ∧
        session.store.repr result = text := by
  intro store text
  have isText : store.repr (.array ⟨0⟩) = text := by decide +kernel
  have names : ∀ key ∈ ["key", "flag"], IsName key := by
    simp only [List.forall_mem_cons]
    exact ⟨⟨by decide +kernel, rfl⟩, ⟨by decide +kernel, rfl⟩, List.forall_mem_nil _⟩
  have object : store.IsDataUpTo 1 (.object ⟨0⟩) := by
    refine ⟨by decide, names, by decide, ?_⟩
    change ∀ value ∈ [.null, .bool true], store.IsDataUpTo 0 value
    simp only [List.forall_mem_cons]
    exact ⟨trivial, trivial, List.forall_mem_nil _⟩
  have data : store.IsDataUpTo 2 (.array ⟨0⟩) := by
    refine ⟨by decide, ?_⟩
    change ∀ item ∈ [.number (-2), .string "a\n#[", .array ⟨1⟩, .object ⟨0⟩],
      store.IsDataUpTo 1 item
    simp only [List.forall_mem_cons]
    refine ⟨⟨-2, by decide, by decide +kernel⟩, ?_, ⟨by decide, ?_⟩, object,
      List.forall_mem_nil _⟩
    · exact Store.isDataUpTo_string.2 (by simp)
    · exact List.forall_mem_nil _
  have reads := repr_reads_back ⟨2, data⟩
  rw [isText] at reads
  exact ⟨⟨2, data⟩, isText, reads⟩

end Session
end TinyScript
