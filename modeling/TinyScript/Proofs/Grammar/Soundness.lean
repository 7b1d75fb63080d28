import TinyScript.Proofs.Grammar.Steps

/-!
# Whatever is read has a derivation

A parser is sound for a form if the tokens it takes are that form, with the tree
that it yields.  Each form is shown to be read soundly once the forms inside it
are, so the rules for any number of tokens are sound.
-/

namespace TinyScript
namespace Grammar

open Parse

variable {α β : Type}

/-- A parser that takes the tokens of a form and yields its tree. -/
def Sound (form : Form) (parser : Parse form.Tree) : Prop :=
  ∀ ⦃stop : Token⦄ ⦃ahead rest : List Token⦄ ⦃tree : form.Tree⦄,
    stop.kind = .eof → parser stop ahead = .ok (tree, rest) →
      ∃ used, ahead = used ++ rest ∧ Derives form used tree rest

/-- A parser that is sound where the next token is a keyword. -/
def SoundFrom (word : Keyword) (form : Form) (parser : Parse form.Tree) : Prop :=
  ∀ ⦃stop keyword : Token⦄ ⦃ahead rest : List Token⦄ ⦃tree : form.Tree⦄,
    stop.kind = .eof → keyword.kind = .keyword word →
      parser stop (keyword :: ahead) = .ok (tree, rest) →
        ∃ used, ahead = used ++ rest ∧ Derives form (keyword :: used) tree rest

/-- A sound parser at the front of another one. -/
theorem Sound.bind
    {form : Form}
    {parser : Parse form.Tree}
    (sound : Sound form parser)
    {next : form.Tree → Parse β}
    {stop : Token}
    (stopEnds : stop.kind = .eof)
    {ahead : List Token}
    {outcome : β × List Token}
    (ok : (parser >>= next) stop ahead = .ok outcome) :
    ∃ tree used rest, ahead = used ++ rest ∧ Derives form used tree rest ∧
      next tree stop rest = .ok outcome := by
  obtain ⟨tree, rest, treeOk, nextOk⟩ := (bind_eq_ok ..).mp ok
  obtain ⟨used, split, derives⟩ := sound stopEnds treeOk
  exact ⟨tree, used, rest, split, derives, nextOk⟩

/-- Rules whose parsers are all sound. -/
structure RulesSound (rules : Rules) : Prop where
  expression : Sound (.expression .assignment) rules.expression
  ternary : Sound (.expression .ternary) rules.ternary
  unary : Sound (.expression .unary) rules.unary
  statement : Sound .statement rules.statement
  branch : SoundFrom .ifWord .branch rules.branch

/-! ## Repetitions -/

/-- What holds of the tokens used and the result when an extension begins, and is kept by every
extension, holds at its end; and then the next token extends nothing. -/
theorem extendUpTo_sound
    {extension? : Token → Option (α → Parse α)}
    {stop : Token}
    (Read : (used : List Token) → α → (next : List Token) → Prop)
    (keeps : ∀ {used sign ahead result extension extended rest},
      Read used result (sign :: ahead) → extension? sign = some extension →
        extension result stop ahead = .ok (extended, rest) →
          ∃ more, ahead = more ++ rest ∧ Read (used ++ sign :: more) extended rest)
    (noEnd : extension? stop = none)
    {bound used ahead rest : List Token}
    {result extended : α}
    (bounded : ahead.length ≤ bound.length)
    (read : Read used result ahead)
    (ok : extendUpTo extension? bound result stop ahead = .ok (extended, rest)) :
    ∃ more, ahead = more ++ rest ∧ Read (used ++ more) extended rest ∧
      rest.head?.bind extension? = none := by
  induction bound generalizing used ahead result with
  | nil =>
    obtain rfl := List.length_eq_zero_iff.mp (Nat.le_zero.mp bounded)
    cases ok
    exact ⟨[], rfl, by simpa using read, rfl⟩
  | cons _ bound ih =>
    rw [extendUpTo, peek_bind, operation?_headD noEnd] at ok
    cases ahead with
    | nil =>
      cases ok
      exact ⟨[], rfl, by simpa using read, rfl⟩
    | cons sign ahead =>
      rw [List.head?_cons, Option.bind_some] at ok
      cases extends? : extension? sign with
      | none =>
        rw [extends?] at ok
        cases ok
        exact ⟨[], rfl, by simpa using read, extends?⟩
      | some extension =>
        simp only [extends?, advance_bind] at ok
        obtain ⟨next, left, nextOk, lastOk⟩ := (bind_eq_ok ..).mp ok
        obtain ⟨more₁, rfl, nextRead⟩ := keeps read extends? nextOk
        have stillBounded : left.length ≤ bound.length := by
          simp only [List.length_cons, List.length_append] at bounded
          omega
        obtain ⟨more₂, rfl, lastRead, ends⟩ := ih stillBounded nextRead lastOk
        refine ⟨sign :: (more₁ ++ more₂), by simp, ?_, ends⟩
        simpa using lastRead

/-- Statements are read up to a token that ends them. -/
theorem statementsUpTo_sound
    {statement : Parse Stmt}
    (sound : Sound .statement statement)
    {isEnd : Token → Bool}
    {stop : Token}
    (stopEnds : stop.kind = .eof)
    (ends : ∀ {ahead : List Token}, isEnd (ahead.headD stop) = true →
      kindAhead ahead = .mark .closeBrace ∨ kindAhead ahead = .eof)
    {bound ahead rest : List Token}
    {statements : List Stmt}
    (bounded : ahead.length ≤ bound.length)
    (ok : Rules.statementsUpTo statement isEnd bound stop ahead = .ok (statements, rest)) :
    ∃ used, ahead = used ++ rest ∧ Derives .statements used statements rest ∧
      (rest = [] ∨ isEnd (rest.headD stop) = true) := by
  induction bound generalizing ahead statements with
  | nil =>
    obtain rfl := List.length_eq_zero_iff.mp (Nat.le_zero.mp bounded)
    cases ok
    exact ⟨[], rfl, .noStatements (Or.inr rfl), Or.inl rfl⟩
  | cons _ bound ih =>
    rw [Rules.statementsUpTo, peek_bind] at ok
    by_cases atEnd : isEnd (ahead.headD stop) = true
    · rw [if_pos atEnd] at ok
      cases ok
      exact ⟨[], rfl, .noStatements (ends atEnd), Or.inr atEnd⟩
    · rw [if_neg atEnd] at ok
      obtain ⟨first, used₁, left, rfl, firstDerives, ok⟩ := sound.bind stopEnds ok
      obtain ⟨separators, left, rfl, separated, _, _, ok⟩ := (skipSeparators_bind_eq_ok ..).mp ok
      obtain ⟨others, rest, othersOk, same⟩ := (bind_eq_ok ..).mp ok
      cases same
      have spelled := firstDerives.spelled rfl
      have stillBounded : left.length ≤ bound.length := by
        have := List.length_pos_iff.mpr spelled
        simp only [List.length_cons, List.length_append] at bounded
        omega
      obtain ⟨used₂, rfl, othersDerive, stopped⟩ := ih stillBounded othersOk
      refine ⟨used₁ ++ separators ++ used₂, by simp, ?_, stopped⟩
      exact .moreStatements (by simpa using firstDerives) separated othersDerive

/-- A list of items is read up to its closing mark. -/
theorem itemsUpTo_sound
    {mark : Mark}
    {item : Item}
    {parser : Parse item.Tree}
    (sound : Sound (.item item) parser)
    {stop : Token}
    (stopEnds : stop.kind = .eof)
    {message : String}
    {bound ahead rest : List Token}
    {items : List item.Tree}
    (bounded : ahead.length < bound.length)
    (ok : (do
      let items ← itemsUpTo mark parser bound
      let _ ← expect (.mark mark) message
      pure items) stop ahead = .ok (items, rest)) :
    ∃ used, ahead = used ++ rest ∧ Derives (.items mark item) used items rest := by
  induction bound generalizing ahead items with
  | nil => exact absurd bounded (Nat.not_lt_zero _)
  | cons _ bound ih =>
    obtain ⟨found, left, itemsOk, ok⟩ := (bind_eq_ok ..).mp ok
    obtain ⟨closing, left, rfl, closingKind, ok⟩ :=
      (expect_bind_eq_ok stopEnds (by simp) ..).mp ok
    cases ok
    rw [itemsUpTo] at itemsOk
    rcases (check_eq_ok stopEnds ..).mp itemsOk with ⟨_, itemsOk⟩ | ⟨_, itemsOk⟩
    · cases itemsOk
      exact ⟨[closing], rfl, .noItems closingKind⟩
    · obtain ⟨first, used₁, left, rfl, firstDerives, itemsOk⟩ := sound.bind stopEnds itemsOk
      obtain ⟨newlines₁, left, rfl, areNewlines₁, _, itemsOk⟩ :=
        (skipNewlines_bind_eq_ok ..).mp itemsOk
      rcases (accept_eq_ok stopEnds (by simp) ..).mp itemsOk with
        ⟨comma, left, rfl, commaKind, itemsOk⟩ | ⟨_, itemsOk⟩
      · obtain ⟨newlines₂, left, rfl, areNewlines₂, _, itemsOk⟩ :=
          (skipNewlines_bind_eq_ok ..).mp itemsOk
        obtain ⟨others, left, othersOk, same⟩ := (bind_eq_ok ..).mp itemsOk
        cases same
        have stillBounded : left.length < bound.length := by
          simp only [List.length_cons, List.length_append] at bounded
          omega
        obtain ⟨used₂, rfl, othersDerive⟩ := ih stillBounded <| (bind_eq_ok ..).mpr
          ⟨others, closing :: rest, othersOk,
            (expect_bind_eq_ok stopEnds (by simp) ..).mpr
              ⟨closing, rest, rfl, closingKind, rfl⟩⟩
        refine ⟨used₁ ++ newlines₁ ++ comma :: (newlines₂ ++ used₂), by simp, ?_⟩
        exact .moreItems (by simpa using firstDerives) areNewlines₁ commaKind areNewlines₂
          othersDerive
      · cases itemsOk
        exact ⟨used₁ ++ newlines₁ ++ [closing], by simp,
          .lastItem firstDerives areNewlines₁ closingKind⟩

/-- A list that is parsed is derived if its items are. -/
theorem listUpTo_sound
    {mark : Mark}
    {item : Item}
    {parser : Parse item.Tree}
    (sound : Sound (.item item) parser)
    (message : String) :
    Sound (.list mark item) (listUpTo mark message parser) := by
  intro stop ahead rest items stopEnds ok
  rw [listUpTo] at ok
  obtain ⟨newlines, left, rfl, areNewlines, _, ok⟩ := (skipNewlines_bind_eq_ok ..).mp ok
  rw [peek_bind] at ok
  obtain ⟨used, rfl, itemsDerive⟩ := itemsUpTo_sound sound stopEnds (Nat.lt_succ_self _) ok
  exact ⟨newlines ++ used, by simp, .list areNewlines itemsDerive⟩

/-! ## Lists and functions -/

section Forms

variable {rules : Rules}

/-- A property that is parsed is derived. -/
theorem field_sound
    (sound : RulesSound rules) :
    Sound (.item .field) rules.field := by
  intro stop ahead rest tree stopEnds ok
  rw [Rules.field, peek_bind] at ok
  split at ok
  case isFalse => exact (refuse_ne_ok _ _ _ _ _ ok).elim
  case isTrue keyKind =>
    cases ahead with
    | nil => simp [stopEnds] at keyKind
    | cons key ahead =>
      rw [advance_bind] at ok
      obtain ⟨newlines₁, left, rfl, areNewlines₁, _, ok⟩ := (skipNewlines_bind_eq_ok ..).mp ok
      rcases (accept_eq_ok stopEnds (by simp) ..).mp ok with
        ⟨colon, left, rfl, colonKind, ok⟩ | ⟨_, ok⟩
      · obtain ⟨newlines₂, left, rfl, areNewlines₂, _, ok⟩ := (skipNewlines_bind_eq_ok ..).mp ok
        obtain ⟨value, used, left, rfl, valueDerives, ok⟩ := sound.expression.bind stopEnds ok
        cases ok
        exact ⟨key :: (newlines₁ ++ colon :: (newlines₂ ++ used)), by simp,
          .field keyKind areNewlines₁ colonKind areNewlines₂ valueDerives⟩
      · rw [bind_of_ok (check_apply ..), bind_of_ok (check_apply ..), kind_headD stopEnds] at ok
        split at ok
        case isFalse => exact (refuse_ne_ok _ _ _ _ _ ok).elim
        case isTrue ends =>
          cases ok
          exact ⟨key :: newlines₁, by simp, .shorthand keyKind areNewlines₁ (by simpa using ends)⟩

/-- A parameter that is parsed is derived. -/
theorem parameter_sound
    (sound : RulesSound rules) :
    Sound (.item .parameter) rules.parameter := by
  intro stop ahead rest tree stopEnds ok
  rw [Rules.parameter] at ok
  obtain ⟨name, left, rfl, nameKind, ok⟩ := (expect_bind_eq_ok stopEnds (by simp) ..).mp ok
  rcases (accept_eq_ok stopEnds (by simp) ..).mp ok with
    ⟨equals, left, rfl, equalsKind, ok⟩ | ⟨noDefault, ok⟩
  · obtain ⟨default, used, left, rfl, defaultDerives, ok⟩ := sound.ternary.bind stopEnds ok
    cases ok
    exact ⟨name :: equals :: used, rfl, .optionalParameter nameKind equalsKind defaultDerives⟩
  · cases ok
    exact ⟨[name], rfl, .requiredParameter nameKind noDefault⟩

theorem value_sound
    (sound : RulesSound rules) :
    Sound (.item .value) rules.expression := by
  intro stop ahead rest tree stopEnds ok
  obtain ⟨used, split, derives⟩ := sound.expression stopEnds ok
  exact ⟨used, split, .value derives⟩

/-- Parameters that are parsed without parentheses are derived. -/
theorem bareParameters_sound
    (sound : RulesSound rules)
    {stop : Token}
    (stopEnds : stop.kind = .eof)
    {bound ahead rest : List Token}
    {parameters : List Parameter}
    (bounded : ahead.length ≤ bound.length)
    (ok : rules.bareParameters bound stop ahead = .ok (parameters, rest)) :
    ∃ used, ahead = used ++ rest ∧ Derives .bareParameters used parameters rest := by
  induction bound generalizing ahead parameters with
  | nil =>
    obtain rfl := List.length_eq_zero_iff.mp (Nat.le_zero.mp bounded)
    cases ok
    exact ⟨[], rfl, .noParameters (by simp)⟩
  | cons _ bound ih =>
    rw [Rules.bareParameters] at ok
    rcases (check_eq_ok stopEnds ..).mp ok with ⟨nameAhead, ok⟩ | ⟨ends, ok⟩
    · obtain ⟨name, left, rfl, nameKind⟩ := exists_cons_of_kindAhead nameAhead (by simp)
      rw [advance_bind] at ok
      rcases (accept_eq_ok stopEnds (by simp) ..).mp ok with
        ⟨equals, left, rfl, equalsKind, ok⟩ | ⟨noDefault, ok⟩
      · obtain ⟨opening, left, rfl, openingKind, ok⟩ :=
          (expect_bind_eq_ok stopEnds (by simp) ..).mp ok
        obtain ⟨default, used₁, left, rfl, defaultDerives, ok⟩ := sound.expression.bind stopEnds ok
        obtain ⟨closing, left, rfl, closingKind, ok⟩ :=
          (expect_bind_eq_ok stopEnds (by simp) ..).mp ok
        rw [pure_bind] at ok
        obtain ⟨others, left, othersOk, same⟩ := (bind_eq_ok ..).mp ok
        cases same
        have stillBounded : left.length ≤ bound.length := by
          simp only [List.length_cons, List.length_append] at bounded
          omega
        obtain ⟨used₂, rfl, othersDerive⟩ := ih stillBounded othersOk
        exact ⟨name :: equals :: opening :: (used₁ ++ closing :: used₂), by simp,
          .optionalParameters nameKind equalsKind openingKind defaultDerives closingKind
            othersDerive⟩
      · rw [pure_bind] at ok
        obtain ⟨others, left, othersOk, same⟩ := (bind_eq_ok ..).mp ok
        cases same
        obtain ⟨used, rfl, othersDerive⟩ := ih (Nat.le_of_succ_le_succ bounded) othersOk
        exact ⟨name :: used, rfl, .requiredParameters nameKind noDefault othersDerive⟩
    · cases ok
      exact ⟨[], rfl, .noParameters ends⟩

theorem parameters_sound
    (sound : RulesSound rules) :
    Sound .parameters rules.parameters := by
  intro stop ahead rest tree stopEnds ok
  rw [Rules.parameters] at ok
  rcases (accept_eq_ok stopEnds (by simp) ..).mp ok with
    ⟨opening, left, rfl, openingKind, ok⟩ | ⟨noList, ok⟩
  · obtain ⟨used, rfl, parametersDerive⟩ := listUpTo_sound (parameter_sound sound) _ stopEnds ok
    exact ⟨opening :: used, rfl, .listedParameters openingKind parametersDerive⟩
  · rw [withAhead_apply] at ok
    obtain ⟨used, rfl, parametersDerive⟩ :=
      bareParameters_sound sound stopEnds (Nat.le_refl _) ok
    exact ⟨used, rfl, .unlistedParameters noList parametersDerive⟩

/-- A block that is parsed is derived. -/
theorem block_sound
    (sound : RulesSound rules) :
    Sound .block rules.block := by
  intro stop ahead rest tree stopEnds ok
  rw [Rules.block] at ok
  obtain ⟨opening, left, rfl, openingKind, ok⟩ := (expect_bind_eq_ok stopEnds (by simp) ..).mp ok
  obtain ⟨statements, left, statementsOk, closingOk⟩ := (bind_eq_ok ..).mp ok
  rw [Rules.statements] at statementsOk
  obtain ⟨separators, left, rfl, separated, _, _, statementsOk⟩ :=
    (skipSeparators_bind_eq_ok ..).mp statementsOk
  rw [withAhead_apply] at statementsOk
  have ends : ∀ {ahead : List Token}, Rules.endsBlock (ahead.headD stop) = true →
      kindAhead ahead = .mark .closeBrace ∨ kindAhead ahead = .eof := by
    intro ahead atEnd
    rw [Rules.endsBlock, kind_headD stopEnds] at atEnd
    simpa using atEnd
  obtain ⟨used, rfl, statementsDerive, _⟩ :=
    statementsUpTo_sound sound.statement stopEnds ends (Nat.le_refl _) statementsOk
  obtain ⟨closing, left, rfl, closingKind, same⟩ :=
    (expect_bind_eq_ok stopEnds (by simp) ..).mp closingOk
  cases same
  exact ⟨opening :: (separators ++ used ++ [closing]), by simp,
    .block openingKind separated statementsDerive closingKind⟩

/-- What follows the parameters of a function, whatever is made of its body. -/
theorem functionBody_sound
    (sound : RulesSound rules)
    {stop : Token}
    (stopEnds : stop.kind = .eof)
    {make : List Stmt → Expr}
    {ahead rest : List Token}
    {tree : Expr}
    (ok : (do
      if ← check (.mark .openBrace) then
        let body ← rules.block
        pure (make body)
      else if ← accept (.mark .colon) then
        let value ← rules.ternary
        pure (make (Rules.returnBody value))
      else
        refuse (← peek) "expected `\x7b` or `:` after function parameters")
      stop ahead = .ok (tree, rest)) :
    ∃ used body, ahead = used ++ rest ∧ Derives .functionBody used body rest ∧
      tree = make body := by
  rcases (check_eq_ok stopEnds ..).mp ok with ⟨_, ok⟩ | ⟨_, ok⟩
  · obtain ⟨body, used, left, rfl, blockDerives, ok⟩ := (block_sound sound).bind stopEnds ok
    cases ok
    exact ⟨used, body, rfl, .functionBlock blockDerives, rfl⟩
  · rcases (accept_eq_ok stopEnds (by simp) ..).mp ok with
      ⟨colon, left, rfl, colonKind, ok⟩ | ⟨_, ok⟩
    · obtain ⟨value, used, left, rfl, valueDerives, ok⟩ := sound.ternary.bind stopEnds ok
      cases ok
      exact ⟨colon :: used, _, rfl, .functionValue colonKind valueDerives, rfl⟩
    · exact (refuse_ne_ok _ _ _ _ _ ok).elim

/-- A function is read from its keyword on. -/
theorem function_sound
    (sound : RulesSound rules)
    (exported : Bool)
    {word : Keyword}
    (isFunction : word = .fnWord ∨ word = .lambdaWord) :
    SoundFrom word (.function exported) (rules.function exported) := by
  intro stop keyword ahead rest tree stopEnds wordKind ok
  have keywordKind : keyword.kind = .keyword .fnWord ∨ keyword.kind = .keyword .lambdaWord := by
    rcases isFunction with rfl | rfl
    · exact Or.inl wordKind
    · exact Or.inr wordKind
  rw [Rules.function, advance_bind] at ok
  rcases (accept_eq_ok stopEnds (by simp) ..).mp ok with
    ⟨colon₁, left, rfl, colonKind₁, ok⟩ | ⟨noColon, ok⟩
  · rcases (accept_eq_ok stopEnds (by simp) ..).mp ok with
      ⟨colon₂, left, rfl, colonKind₂, ok⟩ | ⟨noColon, ok⟩
    · obtain ⟨value, used, left, rfl, valueDerives, ok⟩ := sound.expression.bind stopEnds ok
      cases ok
      exact ⟨colon₁ :: colon₂ :: used, rfl,
        .calledOnTheSpot keywordKind colonKind₁ colonKind₂ valueDerives⟩
    · obtain ⟨parameters, used₁, left, rfl, parametersDerive, ok⟩ :=
        (parameters_sound sound).bind stopEnds ok
      obtain ⟨colon₂, left, rfl, colonKind₂, ok⟩ := (expect_bind_eq_ok stopEnds (by simp) ..).mp ok
      obtain ⟨value, used₂, left, rfl, valueDerives, ok⟩ := sound.ternary.bind stopEnds ok
      cases ok
      have parametersSpelled : used₁ ≠ [] := by
        rintro rfl
        exact noColon colonKind₂
      exact ⟨colon₁ :: (used₁ ++ colon₂ :: used₂), by simp,
        .betweenColons keywordKind colonKind₁ parametersDerive parametersSpelled colonKind₂
          valueDerives⟩
  · rw [bind_of_ok (check_apply ..), kind_headD stopEnds] at ok
    split at ok
    case isTrue isNamed =>
      simp only [Bool.and_eq_true, beq_iff_eq] at isNamed
      obtain ⟨name, left, rfl, nameKind⟩ := exists_cons_of_kindAhead isNamed.2 (by simp)
      rw [advance_bind, pure_bind] at ok
      obtain ⟨parameters, used₁, left, rfl, parametersDerive, ok⟩ :=
        (parameters_sound sound).bind stopEnds ok
      obtain ⟨used₂, body, rfl, bodyDerives, rfl⟩ := functionBody_sound sound stopEnds ok
      exact ⟨name :: (used₁ ++ used₂), by simp,
        .named isNamed.1 nameKind parametersDerive bodyDerives⟩
    case isFalse isUnnamed =>
      rw [pure_bind] at ok
      obtain ⟨parameters, used₁, left, rfl, parametersDerive, ok⟩ :=
        (parameters_sound sound).bind stopEnds ok
      obtain ⟨used₂, body, rfl, bodyDerives, rfl⟩ := functionBody_sound sound stopEnds ok
      have spelled : used₁ ++ used₂ ≠ [] :=
        List.append_ne_nil_of_right_ne_nil used₁ (bodyDerives.spelled rfl)
      rw [← List.append_assoc, kindAhead_append rest spelled] at noColon isUnnamed
      refine ⟨used₁ ++ used₂, by simp, .unnamed ?_ noColon parametersDerive bodyDerives⟩
      rcases keywordKind with keywordKind | keywordKind
      · exact Or.inl ⟨keywordKind, by simpa [keywordKind] using isUnnamed⟩
      · exact Or.inr keywordKind

/-! ## Expressions -/

/-- A primary expression that is parsed is derived. -/
theorem primary_sound
    (sound : RulesSound rules) :
    Sound (.expression .primary) rules.primary := by
  intro stop ahead rest tree stopEnds ok
  rw [Rules.primary, peek_bind] at ok
  cases ahead with
  | nil =>
    simp only [List.headD_nil, stopEnds] at ok
    exact (refuseUnexpected_ne_ok _ _ _ _ ok).elim
  | cons token ahead =>
    rw [List.headD_cons] at ok
    cases kind : token.kind with
    | identifier =>
      rw [kind] at ok
      cases ok
      exact ⟨[token], rfl, .name kind⟩
    | string =>
      rw [kind] at ok
      cases ok
      exact ⟨[token], rfl, .text kind⟩
    | int =>
      rw [kind] at ok
      cases reads : Number.read? token.lexeme.toList with
      | none =>
        simp only [reads] at ok
        exact (refuse_ne_ok _ _ _ _ _ ok).elim
      | some value =>
        simp only [reads] at ok
        cases ok
        exact ⟨[token], rfl, .number (Or.inl kind) reads⟩
    | float =>
      rw [kind] at ok
      cases reads : Number.read? token.lexeme.toList with
      | none =>
        simp only [reads] at ok
        exact (refuse_ne_ok _ _ _ _ _ ok).elim
      | some value =>
        simp only [reads] at ok
        cases ok
        exact ⟨[token], rfl, .number (Or.inr kind) reads⟩
    | keyword word =>
      rw [kind] at ok
      cases word with
      | trueWord =>
        cases ok
        exact ⟨[token], rfl, .truth kind⟩
      | falseWord =>
        cases ok
        exact ⟨[token], rfl, .falsehood kind⟩
      | undefWord =>
        cases ok
        exact ⟨[token], rfl, .undefined kind⟩
      | typeofWord =>
        simp only [advance_bind] at ok
        obtain ⟨operand, used, left, rfl, operandDerives, ok⟩ := sound.unary.bind stopEnds ok
        cases ok
        exact ⟨token :: used, rfl, .typeof kind operandDerives⟩
      | fnWord =>
        obtain ⟨used, rfl, functionDerives⟩ :=
          function_sound sound false (Or.inl rfl) stopEnds kind ok
        exact ⟨token :: used, rfl, .lambda functionDerives⟩
      | lambdaWord =>
        obtain ⟨used, rfl, functionDerives⟩ :=
          function_sound sound false (Or.inr rfl) stopEnds kind ok
        exact ⟨token :: used, rfl, .lambda functionDerives⟩
      | _ => exact (refuseUnexpected_ne_ok _ _ _ _ ok).elim
    | mark mark =>
      rw [kind] at ok
      cases mark with
      | openParen =>
        simp only [advance_bind] at ok
        obtain ⟨newlines₁, left, rfl, areNewlines₁, _, ok⟩ := (skipNewlines_bind_eq_ok ..).mp ok
        obtain ⟨value, used, left, rfl, valueDerives, ok⟩ := sound.expression.bind stopEnds ok
        obtain ⟨newlines₂, left, rfl, areNewlines₂, _, ok⟩ := (skipNewlines_bind_eq_ok ..).mp ok
        obtain ⟨closing, left, rfl, closingKind, ok⟩ :=
          (expect_bind_eq_ok stopEnds (by simp) ..).mp ok
        cases ok
        exact ⟨token :: (newlines₁ ++ used ++ newlines₂ ++ [closing]), by simp,
          .grouped kind areNewlines₁ valueDerives areNewlines₂ closingKind⟩
      | openBracket =>
        simp only [advance_bind] at ok
        obtain ⟨items, used, left, rfl, itemsDerive, ok⟩ :=
          (listUpTo_sound (value_sound sound) _).bind stopEnds ok
        cases ok
        exact ⟨token :: used, rfl, .array kind itemsDerive⟩
      | openBrace =>
        simp only [advance_bind] at ok
        obtain ⟨fields, used, left, rfl, fieldsDerive, ok⟩ :=
          (listUpTo_sound (field_sound sound) _).bind stopEnds ok
        cases ok
        exact ⟨token :: used, rfl, .object kind fieldsDerive⟩
      | _ => exact (refuseUnexpected_ne_ok _ _ _ _ ok).elim
    | _ =>
      rw [kind] at ok
      exact (refuseUnexpected_ne_ok _ _ _ _ ok).elim

/-- A call or access is read behind the value it applies to. -/
theorem suffix_sound
    (sound : RulesSound rules)
    {stop sign : Token}
    (stopEnds : stop.kind = .eof)
    {used ahead rest : List Token}
    {subject extended : Expr}
    {extension : Expr → Parse Expr}
    (subjectDerives : Derives .accesses used subject (sign :: ahead))
    (extends? : rules.suffix? sign = some extension)
    (ok : extension subject stop ahead = .ok (extended, rest)) :
    ∃ more, ahead = more ++ rest ∧ Derives .accesses (used ++ sign :: more) extended rest := by
  unfold Rules.suffix? at extends?
  split at extends?
  case h_1 kind =>
    cases extends?
    obtain ⟨arguments, more, left, rfl, argumentsDerive, ok⟩ :=
      (listUpTo_sound (value_sound sound) _).bind stopEnds ok
    cases ok
    exact ⟨more, rfl, .call subjectDerives kind argumentsDerive⟩
  case h_2 kind =>
    cases extends?
    obtain ⟨name, left, nameOk, ok⟩ := (bind_eq_ok ..).mp ok
    obtain ⟨key, rfl, keyKind, rfl⟩ := (memberName_eq_ok stopEnds ..).mp nameOk
    cases ok
    exact ⟨[key], rfl, .member subjectDerives kind keyKind⟩
  case h_3 kind =>
    cases extends?
    obtain ⟨newlines₁, left, rfl, areNewlines₁, _, ok⟩ := (skipNewlines_bind_eq_ok ..).mp ok
    obtain ⟨key, more, left, rfl, keyDerives, ok⟩ := sound.expression.bind stopEnds ok
    obtain ⟨newlines₂, left, rfl, areNewlines₂, _, ok⟩ := (skipNewlines_bind_eq_ok ..).mp ok
    obtain ⟨closing, left, rfl, closingKind, ok⟩ := (expect_bind_eq_ok stopEnds (by simp) ..).mp ok
    cases ok
    exact ⟨newlines₁ ++ more ++ newlines₂ ++ [closing], by simp,
      .index (by simpa using subjectDerives) kind areNewlines₁ keyDerives areNewlines₂
        closingKind⟩
  case h_4 => cases extends?

/-- An expression that is parsed with its suffixes is derived. -/
theorem callOrMember_sound
    (sound : RulesSound rules) :
    Sound (.expression .suffixed) rules.callOrMember := by
  intro stop ahead rest tree stopEnds ok
  rw [Rules.callOrMember] at ok
  obtain ⟨subject, used, left, rfl, subjectDerives, ok⟩ :=
    (primary_sound sound).bind stopEnds ok
  have noEnd : rules.suffix? stop = none := by simp [Rules.suffix?, stopEnds]
  obtain ⟨more, rfl, derives, ends⟩ :=
    extendUpTo_sound (fun used result next => Derives .accesses used result next)
      (suffix_sound sound stopEnds) noEnd (Nat.le_refl _) (.subject subjectDerives) ok
  exact ⟨used ++ more, by simp, .suffixed derives ((endsAccesses_iff rules rest).mpr ends)⟩

/-- A unary expression that is parsed is derived. -/
theorem unaryForm_sound
    (sound : RulesSound rules) :
    Sound (.expression .unary) rules.unaryForm := by
  intro stop ahead rest tree stopEnds ok
  have noLeading : Rules.leading? stop = none := by simp [Rules.leading?, stopEnds]
  have noTrailing : Rules.trailing? stop = none := by simp [Rules.trailing?, stopEnds]
  rw [Rules.unaryForm, peek_bind] at ok
  cases leads : Rules.leading? (ahead.headD stop) with
  | some operation =>
    rw [leads] at ok
    cases ahead with
    | nil => simp [noLeading] at leads
    | cons sign ahead =>
      simp only [advance_bind] at ok
      obtain ⟨operand, used, left, rfl, operandDerives, ok⟩ := sound.unary.bind stopEnds ok
      cases ok
      exact ⟨sign :: used, rfl, .leading leads operandDerives⟩
  | none =>
    rw [leads] at ok
    obtain ⟨operand, used, left, rfl, operandDerives, ok⟩ :=
      (callOrMember_sound sound).bind stopEnds ok
    rw [peek_bind, operation?_headD noTrailing] at ok
    cases trails : left.head?.bind Rules.trailing? with
    | some op =>
      rw [trails] at ok
      cases left with
      | nil => cases trails
      | cons sign left =>
        cases ok
        exact ⟨used ++ [sign], by simp, .trailing operandDerives trails⟩
    | none =>
      rw [trails] at ok
      cases ok
      exact ⟨used, rfl, .unstepped operandDerives trails⟩

/-- A chain is read soundly if its operands are. -/
theorem chain_sound
    {chain : Chain}
    {operand : Parse Expr}
    (sound : Sound (.expression chain.operand) operand) :
    Sound (.expression (.chain chain)) (Rules.chain operand chain.operation?) := by
  intro stop ahead rest tree stopEnds ok
  rw [Rules.chain] at ok
  obtain ⟨first, used, left, rfl, firstDerives, ok⟩ := sound.bind stopEnds ok
  have keeps : ∀ {used sign ahead left extension extended rest},
      Derives (.operations chain) used left (sign :: ahead) →
        chain.extension? operand sign = some extension →
          extension left stop ahead = .ok (extended, rest) →
            ∃ more, ahead = more ++ rest ∧
              Derives (.operations chain) (used ++ sign :: more) extended rest := by
    intro used sign ahead left extension extended rest leftDerives extends? ok
    obtain ⟨operation, signOperation, rfl⟩ := Option.map_eq_some_iff.mp extends?
    obtain ⟨right, more, left, rfl, rightDerives, ok⟩ := sound.bind stopEnds ok
    cases ok
    exact ⟨more, rfl, .operation leftDerives signOperation rightDerives⟩
  have noEnd : chain.extension? operand stop = none := by
    rw [Chain.extension?, chain.operation?_of_eof stopEnds, Option.map_none]
  obtain ⟨more, rfl, derives, ends⟩ :=
    extendUpTo_sound (fun used result next => Derives (.operations chain) used result next)
      keeps noEnd (Nat.le_refl _) (.operand firstDerives) ok
  exact ⟨used ++ more, by simp,
    .chain derives ((chain.bind_extension?_eq_none operand rest).mp ends)⟩

theorem logical_sound
    (sound : RulesSound rules) :
    Sound (.expression (.chain .logical)) rules.logical := by
  have products : Sound (.expression (.chain .product)) rules.product :=
    chain_sound (unaryForm_sound sound)
  have sums : Sound (.expression (.chain .sum)) rules.sum :=
    chain_sound products
  have comparisons : Sound (.expression (.chain .comparison)) rules.comparison :=
    chain_sound sums
  have equalities : Sound (.expression (.chain .equality)) rules.equality :=
    chain_sound comparisons
  exact chain_sound equalities

/-- A ternary expression that is parsed is derived. -/
theorem ternaryForm_sound
    (sound : RulesSound rules) :
    Sound (.expression .ternary) rules.ternaryForm := by
  intro stop ahead rest tree stopEnds ok
  rw [Rules.ternaryForm] at ok
  obtain ⟨test, used₁, left, rfl, testDerives, ok⟩ := (logical_sound sound).bind stopEnds ok
  rcases (accept_eq_ok stopEnds (by simp) ..).mp ok with
    ⟨question, left, rfl, questionKind, ok⟩ | ⟨ends, ok⟩
  · obtain ⟨consequent, used₂, left, rfl, consequentDerives, ok⟩ :=
      (logical_sound sound).bind stopEnds ok
    obtain ⟨colon, left, rfl, colonKind, ok⟩ := (expect_bind_eq_ok stopEnds (by simp) ..).mp ok
    obtain ⟨alternate, used₃, left, rfl, alternateDerives, ok⟩ := sound.ternary.bind stopEnds ok
    cases ok
    exact ⟨used₁ ++ question :: (used₂ ++ colon :: used₃), by simp,
      .choice testDerives questionKind consequentDerives colonKind alternateDerives⟩
  · cases ok
    exact ⟨used₁, rfl, .unchosen testDerives ends⟩

/-- An assignment or declaration that is parsed is derived. -/
theorem assignment_sound
    (sound : RulesSound rules) :
    Sound (.expression .assignment) rules.assignment := by
  intro stop ahead rest tree stopEnds ok
  have noCompound : Rules.compound? stop = none := by simp [Rules.compound?, stopEnds]
  rw [Rules.assignment] at ok
  obtain ⟨target, used₁, left, rfl, targetDerives, ok⟩ := (ternaryForm_sound sound).bind stopEnds ok
  rcases (accept_eq_ok stopEnds (by simp) ..).mp ok with
    ⟨equals, left, rfl, equalsKind, ok⟩ | ⟨noAssign, ok⟩
  · obtain ⟨value, used₂, left, rfl, valueDerives, ok⟩ := sound.expression.bind stopEnds ok
    cases ok
    exact ⟨used₁ ++ equals :: used₂, by simp, .assign targetDerives equalsKind valueDerives⟩
  · rw [peek_bind, operation?_headD noCompound] at ok
    cases compound : left.head?.bind Rules.compound? with
    | some op =>
      rw [compound] at ok
      cases left with
      | nil => cases compound
      | cons sign left =>
        simp only [advance_bind] at ok
        obtain ⟨value, used₂, left, rfl, valueDerives, ok⟩ := sound.expression.bind stopEnds ok
        cases ok
        exact ⟨used₁ ++ sign :: used₂, by simp,
          .compoundAssign targetDerives compound valueDerives⟩
    | none =>
      rw [compound] at ok
      dsimp only at ok
      rw [bind_of_ok (Rules.declarationAhead_apply ..)] at ok
      cases declares : declared? left with
      | none =>
        rw [declares] at ok
        cases ok
        exact ⟨used₁, rfl, .unassigned targetDerives ⟨noAssign, compound, declares⟩⟩
      | some flavour =>
        rw [declares] at ok
        obtain ⟨colon, word, equals, left, rfl, colonKind, equalsKind, wordFlavour⟩ :=
          exists_declaration declares
        cases target with
        | name position name =>
          simp only [advance_bind] at ok
          obtain ⟨value, used₂, left, rfl, valueDerives, ok⟩ := sound.expression.bind stopEnds ok
          cases ok
          exact ⟨used₁ ++ colon :: word :: equals :: used₂, by simp,
            .declare targetDerives colonKind wordFlavour equalsKind valueDerives⟩
        | _ => cases ok

/-! ## Statements -/

/-- A body that is parsed is derived. -/
theorem body_sound
    (sound : RulesSound rules)
    (context : String) :
    Sound .body (rules.body context) := by
  intro stop ahead rest tree stopEnds ok
  rw [Rules.body] at ok
  rcases (check_eq_ok stopEnds ..).mp ok with ⟨_, ok⟩ | ⟨_, ok⟩
  · obtain ⟨used, rfl, blockDerives⟩ := block_sound sound stopEnds ok
    exact ⟨used, rfl, .bodyBlock blockDerives⟩
  · rcases (accept_eq_ok stopEnds (by simp) ..).mp ok with
      ⟨colon, left, rfl, colonKind, ok⟩ | ⟨_, ok⟩
    · obtain ⟨statement, used, left, rfl, statementDerives, ok⟩ := sound.statement.bind stopEnds ok
      cases ok
      exact ⟨colon :: used, rfl, .bodyStatement colonKind statementDerives⟩
    · exact (refuse_ne_ok _ _ _ _ _ ok).elim

/-- An alternative that is parsed is derived. -/
theorem alternative_sound
    (sound : RulesSound rules) :
    Sound .alternative rules.alternative := by
  intro stop ahead rest tree stopEnds ok
  rw [Rules.alternative] at ok
  rcases (check_eq_ok stopEnds ..).mp ok with ⟨branchAhead, ok⟩ | ⟨noBranch, ok⟩
  · obtain ⟨keyword, left, rfl, keywordKind⟩ := exists_cons_of_kindAhead branchAhead (by simp)
    obtain ⟨statement, left, branchOk, ok⟩ := (bind_eq_ok ..).mp ok
    cases ok
    obtain ⟨used, rfl, branchDerives⟩ := sound.branch stopEnds keywordKind branchOk
    exact ⟨keyword :: used, rfl, .elseIf branchDerives⟩
  · rcases (check_eq_ok stopEnds ..).mp ok with ⟨_, ok⟩ | ⟨noBlock, ok⟩
    · obtain ⟨used, rfl, blockDerives⟩ := block_sound sound stopEnds ok
      exact ⟨used, rfl, .elseBlock blockDerives⟩
    · rcases (accept_bind_eq_ok stopEnds (by simp) ..).mp ok with
        ⟨colon, left, rfl, colonKind, ok⟩ | ⟨_, ok⟩
      · obtain ⟨statement, used, left, rfl, statementDerives, ok⟩ :=
          sound.statement.bind stopEnds ok
        cases ok
        exact ⟨colon :: used, rfl, .elseColon colonKind statementDerives⟩
      · obtain ⟨statement, used, left, rfl, statementDerives, ok⟩ :=
          sound.statement.bind stopEnds ok
        cases ok
        rw [kindAhead_append rest (statementDerives.spelled rfl)] at noBranch noBlock
        exact ⟨used, rfl, .elseStatement noBranch noBlock statementDerives⟩

/-- A branch is read from `if` on. -/
theorem branchForm_sound
    (sound : RulesSound rules) :
    SoundFrom .ifWord .branch rules.branchForm := by
  intro stop keyword ahead rest tree stopEnds keywordKind ok
  rw [Rules.branchForm, advance_bind] at ok
  obtain ⟨test, used₁, left, rfl, testDerives, ok⟩ := sound.expression.bind stopEnds ok
  obtain ⟨consequent, used₂, left, rfl, consequentDerives, ok⟩ :=
    (body_sound sound _).bind stopEnds ok
  rcases (acceptPastNewlines_eq_ok stopEnds (by simp) (by simp) ..).mp ok with
    ⟨newlines, otherwise, left, rfl, areNewlines, otherwiseKind, ok⟩ | ⟨noElse, ok⟩
  · obtain ⟨alternate, used₃, left, rfl, alternateDerives, ok⟩ :=
      (alternative_sound sound).bind stopEnds ok
    cases ok
    exact ⟨used₁ ++ used₂ ++ newlines ++ otherwise :: used₃, by simp,
      .ifElse keywordKind (by simpa using testDerives) consequentDerives areNewlines
        otherwiseKind alternateDerives⟩
  · cases ok
    exact ⟨used₁ ++ used₂, by simp, .ifOnly keywordKind testDerives consequentDerives noElse⟩

theorem whileForm_sound
    (sound : RulesSound rules) :
    SoundFrom .whileWord .bareStatement rules.whileForm := by
  intro stop keyword ahead rest tree stopEnds keywordKind ok
  rw [Rules.whileForm, advance_bind] at ok
  obtain ⟨test, used₁, left, rfl, testDerives, ok⟩ := sound.expression.bind stopEnds ok
  obtain ⟨body, used₂, left, rfl, bodyDerives, ok⟩ := (body_sound sound _).bind stopEnds ok
  cases ok
  exact ⟨used₁ ++ used₂, by simp, .whileLoop keywordKind testDerives bodyDerives⟩

theorem forForm_sound
    (sound : RulesSound rules) :
    SoundFrom .forWord .bareStatement rules.forForm := by
  intro stop keyword ahead rest tree stopEnds keywordKind ok
  rw [Rules.forForm, advance_bind] at ok
  obtain ⟨start, used₁, left, rfl, startDerives, ok⟩ := sound.expression.bind stopEnds ok
  obtain ⟨semicolon₁, left, rfl, semicolonKind₁, ok⟩ :=
    (expect_bind_eq_ok stopEnds (by simp) ..).mp ok
  obtain ⟨test, used₂, left, rfl, testDerives, ok⟩ := sound.expression.bind stopEnds ok
  obtain ⟨semicolon₂, left, rfl, semicolonKind₂, ok⟩ :=
    (expect_bind_eq_ok stopEnds (by simp) ..).mp ok
  obtain ⟨update, used₃, left, rfl, updateDerives, ok⟩ := sound.expression.bind stopEnds ok
  obtain ⟨body, used₄, left, rfl, bodyDerives, ok⟩ := (block_sound sound).bind stopEnds ok
  cases ok
  exact ⟨used₁ ++ semicolon₁ :: (used₂ ++ semicolon₂ :: (used₃ ++ used₄)), by simp,
    .forLoop keywordKind (by simpa using startDerives) semicolonKind₁ (by simpa using testDerives)
      semicolonKind₂ updateDerives bodyDerives⟩

theorem returnForm_sound
    (sound : RulesSound rules) :
    SoundFrom .returnWord .bareStatement rules.returnForm := by
  intro stop keyword ahead rest tree stopEnds keywordKind ok
  rw [Rules.returnForm, advance_bind, peek_bind, Rules.endsReturn, kind_headD stopEnds] at ok
  split at ok
  case isTrue ends =>
    cases ok
    exact ⟨[], rfl, .returnNothing keywordKind (by simpa [or_assoc] using ends)⟩
  case isFalse =>
    obtain ⟨value, used, left, rfl, valueDerives, ok⟩ := sound.expression.bind stopEnds ok
    cases ok
    exact ⟨used, rfl, .returnValue keywordKind valueDerives⟩

theorem debugForm_sound
    (sound : RulesSound rules) :
    SoundFrom .debugWord .bareStatement rules.debugForm := by
  intro stop keyword ahead rest tree stopEnds keywordKind ok
  rw [Rules.debugForm, advance_bind] at ok
  rcases (accept_eq_ok stopEnds (by simp) ..).mp ok with
    ⟨opening, left, rfl, openingKind, ok⟩ | ⟨noList, ok⟩
  · obtain ⟨values, used, left, rfl, valuesDerive, ok⟩ :=
      (listUpTo_sound (value_sound sound) _).bind stopEnds ok
    cases ok
    exact ⟨opening :: used, rfl, .debugList keywordKind openingKind valuesDerive⟩
  · obtain ⟨value, used, left, rfl, valueDerives, ok⟩ := sound.expression.bind stopEnds ok
    cases ok
    rw [kindAhead_append rest (valueDerives.spelled rfl)] at noList
    exact ⟨used, rfl, .debugValue keywordKind noList valueDerives⟩

theorem useForm_sound :
    SoundFrom .useWord .bareStatement Rules.useForm := by
  intro stop keyword ahead rest tree stopEnds keywordKind ok
  rw [Rules.useForm, advance_bind] at ok
  obtain ⟨path, left, rfl, pathKind, ok⟩ := (expect_bind_eq_ok stopEnds (by simp) ..).mp ok
  cases ok
  exact ⟨[path], rfl, .use keywordKind pathKind⟩

theorem exportForm_sound
    (sound : RulesSound rules) :
    SoundFrom .outWord .bareStatement rules.exportForm := by
  intro stop keyword ahead rest tree stopEnds keywordKind ok
  rw [Rules.exportForm, advance_bind] at ok
  rcases (check_eq_ok stopEnds ..).mp ok with ⟨functionAhead, ok⟩ | ⟨_, ok⟩
  · obtain ⟨word, left, rfl, wordKind⟩ := exists_cons_of_kindAhead functionAhead (by simp)
    obtain ⟨function, left, functionOk, ok⟩ := (bind_eq_ok ..).mp ok
    cases ok
    obtain ⟨used, rfl, functionDerives⟩ :=
      function_sound sound true (Or.inl rfl) stopEnds wordKind functionOk
    exact ⟨word :: used, rfl, .exported keywordKind wordKind functionDerives⟩
  · exact (refuse_ne_ok _ _ _ _ _ ok).elim

/-- A statement that is parsed is derived. -/
theorem bareStatement_sound
    (sound : RulesSound rules) :
    Sound .bareStatement rules.bareStatement := by
  intro stop ahead rest tree stopEnds ok
  rw [Rules.bareStatement, peek_bind] at ok
  have expressionOk (valueOk : (do
      let value ← rules.assignment
      pure (Stmt.expr value.position value)) stop ahead = .ok (tree, rest)) :
      ∃ used, ahead = used ++ rest ∧ Derives .bareStatement used tree rest := by
    obtain ⟨value, used, left, rfl, valueDerives, ok⟩ :=
      (assignment_sound sound).bind stopEnds valueOk
    cases ok
    exact ⟨used, rfl, .expressionStatement valueDerives⟩
  cases ahead with
  | nil =>
    rw [List.headD_nil, stopEnds] at ok
    exact expressionOk ok
  | cons token ahead =>
    rw [List.headD_cons] at ok
    cases kind : token.kind with
    | keyword word =>
      rw [kind] at ok
      cases word with
      | ifWord =>
        obtain ⟨used, rfl, derives⟩ := branchForm_sound sound stopEnds kind ok
        exact ⟨token :: used, rfl, .branchStatement derives⟩
      | whileWord =>
        obtain ⟨used, rfl, derives⟩ := whileForm_sound sound stopEnds kind ok
        exact ⟨token :: used, rfl, derives⟩
      | forWord =>
        obtain ⟨used, rfl, derives⟩ := forForm_sound sound stopEnds kind ok
        exact ⟨token :: used, rfl, derives⟩
      | returnWord =>
        obtain ⟨used, rfl, derives⟩ := returnForm_sound sound stopEnds kind ok
        exact ⟨token :: used, rfl, derives⟩
      | debugWord =>
        obtain ⟨used, rfl, derives⟩ := debugForm_sound sound stopEnds kind ok
        exact ⟨token :: used, rfl, derives⟩
      | useWord =>
        obtain ⟨used, rfl, derives⟩ := useForm_sound stopEnds kind ok
        exact ⟨token :: used, rfl, derives⟩
      | outWord =>
        obtain ⟨used, rfl, derives⟩ := exportForm_sound sound stopEnds kind ok
        exact ⟨token :: used, rfl, derives⟩
      | _ => exact expressionOk ok
    | _ =>
      rw [kind] at ok
      exact expressionOk ok

/-- A statement that is parsed with its semicolon is derived. -/
theorem statementForm_sound
    (sound : RulesSound rules) :
    Sound .statement rules.statementForm := by
  intro stop ahead rest tree stopEnds ok
  rw [Rules.statementForm] at ok
  obtain ⟨statement, used, left, rfl, statementDerives, ok⟩ :=
    (bareStatement_sound sound).bind stopEnds ok
  rcases (accept_bind_eq_ok stopEnds (by simp) ..).mp ok with
    ⟨semicolon, left, rfl, semicolonKind, ok⟩ | ⟨noSemicolon, ok⟩
  · cases ok
    exact ⟨used ++ [semicolon], by simp, .ended statementDerives semicolonKind⟩
  · cases ok
    exact ⟨used, rfl, .unended statementDerives noSemicolon⟩

end Forms

/-! ## All rules -/

/-- Rules that parse nothing are sound. -/
theorem empty_sound :
    RulesSound Rules.empty := by
  constructor
  case branch =>
    intro stop keyword ahead rest tree _ _ ok
    exact (refuseUnexpected_ne_ok stop stop (keyword :: ahead) _ ok).elim
  all_goals
    intro stop ahead rest tree _ ok
    exact (refuseUnexpected_ne_ok stop stop ahead _ ok).elim

/-- Rules that are made of sound ones are sound. -/
theorem next_sound
    {rules : Rules}
    (sound : RulesSound rules) :
    RulesSound rules.next where
  expression := assignment_sound sound
  ternary := ternaryForm_sound sound
  unary := unaryForm_sound sound
  statement := statementForm_sound sound
  branch := branchForm_sound sound

/-- Rules of any depth are sound. -/
theorem upTo_sound
    (count : Nat) :
    RulesSound (Rules.upTo count) := by
  induction count with
  | zero => exact empty_sound
  | succ count ih => exact next_sound ih

/-- A program that is read has a derivation from the tokens before the first that ends the
source. -/
theorem ofTokens_sound
    {tokens : List Token}
    {program : Program}
    (ok : Program.ofTokens tokens = .ok program) :
    Derives .program (Program.tokensAhead tokens) program [] := by
  have stopEnds := endToken_kind tokens
  have ends : ∀ {ahead : List Token},
      ((ahead.headD (Program.endToken tokens)).kind == .eof) = true →
        kindAhead ahead = .mark .closeBrace ∨ kindAhead ahead = .eof := by
    intro ahead atEnd
    rw [kind_headD stopEnds, beq_iff_eq] at atEnd
    exact Or.inr atEnd
  obtain ⟨rest, statementsOk⟩ := (ofTokens_eq_ok ..).mp ok
  rw [Rules.statements] at statementsOk
  obtain ⟨separators, left, split, separated, _, _, statementsOk⟩ :=
    (skipSeparators_bind_eq_ok ..).mp statementsOk
  obtain ⟨used, rfl, statementsDerive, stopped⟩ :=
    statementsUpTo_sound (upTo_sound _).statement stopEnds ends (Nat.le_refl _) statementsOk
  have noneLeft : rest = [] := by
    rcases stopped with noneLeft | atEnd
    · exact noneLeft
    · cases rest with
      | nil => rfl
      | cons token rest =>
        have isAhead : token ∈ Program.tokensAhead tokens := by simp [split]
        exact absurd (by simpa using atEnd) (kind_ne_eof_of_mem_tokensAhead isAhead)
  subst noneLeft
  rw [split, List.append_nil]
  exact .program separated statementsDerive

end Grammar
end TinyScript
