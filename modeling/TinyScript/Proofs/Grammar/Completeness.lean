import TinyScript.Proofs.Grammar.Productions
import TinyScript.Proofs.Grammar.Soundness

/-!
# Whatever has a derivation is read

Rules for enough tokens read every form off the front of the tokens ahead, if
the form has a derivation there.  The proof is one induction on derivations; the
forms that may be extended are read as far as the extension goes on from them.
-/

namespace TinyScript
namespace Grammar

open Parse

/-- How many tokens the rules for `count` tokens can do with beyond `count`: a form that the
rules read themselves may have one more, one that they are asked for may not. -/
def Form.spare : Form → Nat
  | .item _ | .items _ _ | .list _ _ | .statements | .alternative | .program => 0
  | _ => 1

/-- The marks that lists end with. -/
def closes (mark : Mark) : Prop :=
  mark = .closeParen ∨ mark = .closeBracket ∨ mark = .closeBrace

/-- The rules for `count` tokens read a form off the front of the tokens ahead. -/
def Reads (count : Nat) (stop : Token) :
    (form : Form) → (ahead : List Token) → (tree : form.Tree) → (next : List Token) → Prop
  | .expression level, ahead, tree, next =>
    level.parser (Rules.upTo count) stop ahead = .ok (tree, next)
  | .operations chain, ahead, tree, next =>
    ∃ bound, next.length ≤ bound.length ∧
      (Level.chain chain).parser (Rules.upTo count) stop ahead =
        extendUpTo (chain.extension? (chain.operand.parser (Rules.upTo count))) bound tree stop next
  | .accesses, ahead, tree, next =>
    ∃ bound, next.length ≤ bound.length ∧
      (Rules.upTo count).callOrMember stop ahead =
        extendUpTo (Rules.upTo count).suffix? bound tree stop next
  | .function exported, ahead, tree, next =>
    (Rules.upTo count).function exported stop ahead = .ok (tree, next)
  | .functionBody, ahead, tree, next =>
    ∀ make, functionEnd (Rules.upTo count) make stop ahead = .ok (make tree, next)
  | .parameters, ahead, tree, next =>
    (Rules.upTo count).parameters stop ahead = .ok (tree, next)
  | .bareParameters, ahead, tree, next =>
    ∀ bound, ahead.length ≤ bound.length →
      (Rules.upTo count).bareParameters bound stop ahead = .ok (tree, next)
  | .item item, ahead, tree, next =>
    item.parser (Rules.upTo count) stop ahead = .ok (tree, next)
  | .items mark item, ahead, tree, next =>
    closes mark → ∀ bound, ahead.length ≤ bound.length →
      ∃ closing, closing.kind = .mark mark ∧
        itemsUpTo mark (item.parser (Rules.upTo count)) bound stop ahead =
          .ok (tree, closing :: next)
  | .list mark item, ahead, tree, next =>
    closes mark → ∀ message,
      listUpTo mark message (item.parser (Rules.upTo count)) stop ahead = .ok (tree, next)
  | .block, ahead, tree, next =>
    (Rules.upTo count).block stop ahead = .ok (tree, next)
  | .body, ahead, tree, next =>
    ∀ context, (Rules.upTo count).body context stop ahead = .ok (tree, next)
  | .statements, ahead, tree, next =>
    ∀ isEnd : Token → Bool, (∀ token, beginsStatement token.kind = true → isEnd token = false) →
      isEnd (next.headD stop) = true → ∀ bound, ahead.length ≤ bound.length →
        Rules.statementsUpTo (Rules.upTo count).statement isEnd bound stop ahead = .ok (tree, next)
  | .statement, ahead, tree, next =>
    (Rules.upTo count).statementForm stop ahead = .ok (tree, next)
  | .bareStatement, ahead, tree, next =>
    (Rules.upTo count).bareStatement stop ahead = .ok (tree, next)
  | .branch, ahead, tree, next =>
    (Rules.upTo count).branchForm stop ahead = .ok (tree, next)
  | .alternative, ahead, tree, next =>
    (Rules.upTo count).alternative stop ahead = .ok (tree, next)
  | .program, ahead, tree, next =>
    Rules.statements (Rules.upTo count).statement (·.kind == .eof) stop ahead = .ok (tree, next)

/-- A form is read off the front of the tokens ahead by the rules for enough tokens. -/
def Complete (form : Form) (used : List Token) (tree : form.Tree) (next : List Token) : Prop :=
  ∀ ⦃count : Nat⦄ ⦃stop : Token⦄ ⦃ahead : List Token⦄, stop.kind = .eof → ahead = used ++ next →
    ahead.length ≤ count + form.spare → Reads count stop form ahead tree next

/-! ## Forms that the rules are asked for -/

section Inner

variable {used next ahead : List Token} {count : Nat} {stop : Token}

/-- Rules for all the tokens ahead are enough, whether or not they could do with more. -/
theorem Complete.reads
    {form : Form}
    {tree : form.Tree}
    (complete : Complete form used tree next)
    (stopEnds : stop.kind = .eof)
    (split : ahead = used ++ next)
    (bounded : ahead.length ≤ count) :
    Reads count stop form ahead tree next :=
  complete stopEnds split (Nat.le_add_right_of_le bounded)

/-- Rules that are asked for a form with a token of its own are those for at least one token. -/
theorem exists_succ_of_spelled
    (spelled : used ≠ [])
    (split : ahead = used ++ next)
    (bounded : ahead.length ≤ count) :
    ∃ smaller, count = smaller + 1 := by
  have := List.length_pos_iff.mpr spelled
  rw [split, List.length_append] at bounded
  exact ⟨count - 1, by omega⟩

/-- An expression that a form derives is parsed to its tree. -/
theorem Complete.expression
    {value : Expr}
    (complete : Complete (.expression .assignment) used value next)
    (spelled : used ≠ [])
    (stopEnds : stop.kind = .eof)
    (split : ahead = used ++ next)
    (bounded : ahead.length ≤ count) :
    (Rules.upTo count).expression stop ahead = .ok (value, next) := by
  obtain ⟨smaller, rfl⟩ := exists_succ_of_spelled spelled split bounded
  exact complete stopEnds split bounded

/-- A ternary expression that a form derives is parsed to its tree. -/
theorem Complete.ternary
    {value : Expr}
    (complete : Complete (.expression .ternary) used value next)
    (spelled : used ≠ [])
    (stopEnds : stop.kind = .eof)
    (split : ahead = used ++ next)
    (bounded : ahead.length ≤ count) :
    (Rules.upTo count).ternary stop ahead = .ok (value, next) := by
  obtain ⟨smaller, rfl⟩ := exists_succ_of_spelled spelled split bounded
  exact complete stopEnds split bounded

/-- A unary expression that a form derives is parsed to its tree. -/
theorem Complete.unary
    {value : Expr}
    (complete : Complete (.expression .unary) used value next)
    (spelled : used ≠ [])
    (stopEnds : stop.kind = .eof)
    (split : ahead = used ++ next)
    (bounded : ahead.length ≤ count) :
    (Rules.upTo count).unary stop ahead = .ok (value, next) := by
  obtain ⟨smaller, rfl⟩ := exists_succ_of_spelled spelled split bounded
  exact complete stopEnds split bounded

/-- A statement that a form derives is parsed to its tree. -/
theorem Complete.statement
    {statement : Stmt}
    (complete : Complete .statement used statement next)
    (spelled : used ≠ [])
    (stopEnds : stop.kind = .eof)
    (split : ahead = used ++ next)
    (bounded : ahead.length ≤ count) :
    (Rules.upTo count).statement stop ahead = .ok (statement, next) := by
  obtain ⟨smaller, rfl⟩ := exists_succ_of_spelled spelled split bounded
  exact complete stopEnds split bounded

/-- A branch that a form derives is parsed to its tree. -/
theorem Complete.branch
    {statement : Stmt}
    (complete : Complete .branch used statement next)
    (spelled : used ≠ [])
    (stopEnds : stop.kind = .eof)
    (split : ahead = used ++ next)
    (bounded : ahead.length ≤ count) :
    (Rules.upTo count).branch stop ahead = .ok (statement, next) := by
  obtain ⟨smaller, rfl⟩ := exists_succ_of_spelled spelled split bounded
  exact complete stopEnds split bounded

end Inner

/-! ## The induction -/

/-- An operand shows that no operator stands before it. -/
theorem leading?_of_suffixed
    {used next : List Token}
    {value : Expr}
    (derives : Derives (.expression .suffixed) used value next)
    (more : List Token)
    (stop : Token) :
    Rules.leading? ((used ++ more).headD stop) = none := by
  have begins := derives.begins_append rfl more
  have spelled := derives.spelled rfl
  cases used with
  | nil => exact absurd rfl spelled
  | cons token used => exact leading?_of_beginsOperand begins

/-- No item begins with a mark that lists end with. -/
theorem Item.begins_mark_of_closes
    (item : Item)
    {mark : Mark}
    (isClosing : closes mark) :
    item.begins (.mark mark) = false := by
  rcases isClosing with rfl | rfl | rfl <;> cases item <;> rfl

theorem items_begins_eof
    (mark : Mark)
    (item : Item) :
    (Form.items mark item).begins .eof = false := by
  simp [Form.begins, item.begins_eof]

theorem items_begins_newline
    (mark : Mark)
    (item : Item) :
    (Form.items mark item).begins .newline = false := by
  cases item <;> simp [Form.begins, Item.begins, beginsValue, beginsOperand]

/-- A statement begins with no token that separates statements. -/
theorem noSeparator_of_statements
    {used next : List Token}
    {statements : List Stmt}
    (derives : Derives .statements used statements next) :
    kindAhead (used ++ next) ≠ .newline ∧ kindAhead (used ++ next) ≠ .mark .semicolon := by
  cases derives with
  | noStatements ends =>
    rcases ends with ends | ends <;> simp [ends]
  | moreStatements firstDerives separated othersDerive =>
    rw [List.append_assoc, List.append_assoc]
    exact ⟨firstDerives.kindAhead_ne rfl rfl _, firstDerives.kindAhead_ne rfl rfl _⟩

/-- Parameters that are written out do not begin with a colon. -/
theorem noColon_of_parameters
    {used next : List Token}
    {parameters : List Parameter}
    (derives : Derives .parameters used parameters next)
    (spelled : used ≠ [])
    (more : List Token) :
    kindAhead (used ++ more) ≠ .mark .colon := by
  cases derives with
  | listedParameters openingKind _ => simp [openingKind]
  | unlistedParameters _ bareDerives =>
    cases bareDerives with
    | noParameters => exact absurd rfl spelled
    | requiredParameters nameKind => simp [nameKind]
    | optionalParameters nameKind => simp [nameKind]

/-- No statement begins with a token that ends a block. -/
theorem endsBlock_of_begins
    (token : Token)
    (begins : beginsStatement token.kind = true) :
    Rules.endsBlock token = false := by
  rw [Rules.endsBlock, Bool.or_eq_false_iff, beq_eq_false_iff_ne, beq_eq_false_iff_ne]
  constructor
  all_goals
    intro same
    rw [same] at begins
    cases begins

/-- No statement begins where the source ends. -/
theorem ne_eof_of_begins
    (token : Token)
    (begins : beginsStatement token.kind = true) :
    (token.kind == .eof) = false := by
  rw [beq_eq_false_iff_ne]
  intro same
  rw [same] at begins
  cases begins

/-- Whatever has a derivation is read. -/
theorem Derives.complete
    {form : Form}
    {used next : List Token}
    {tree : form.Tree}
    (derives : Derives form used tree next) :
    Complete form used tree next := by
  induction derives with
  -- Expressions, from loosest to tightest.
  | assign targetDerives equalsKind valueDerives targetComplete valueComplete =>
    rintro count stop ahead stopEnds rfl (bounded : _ ≤ count + 1)
    refine assignment_of_assign (targetComplete stopEnds (by simp) bounded) equalsKind ?_
    exact valueComplete.expression (valueDerives.spelled rfl) stopEnds rfl (by grind)
  | compoundAssign targetDerives signOperation valueDerives targetComplete valueComplete =>
    rintro count stop ahead stopEnds rfl (bounded : _ ≤ count + 1)
    refine assignment_of_compound stopEnds (targetComplete stopEnds (by simp) bounded)
      signOperation ?_
    exact valueComplete.expression (valueDerives.spelled rfl) stopEnds rfl (by grind)
  | declare targetDerives colonKind wordFlavour equalsKind valueDerives targetComplete
      valueComplete =>
    rintro count stop ahead stopEnds rfl (bounded : _ ≤ count + 1)
    refine assignment_of_declare stopEnds (targetComplete stopEnds (by simp) bounded) colonKind
      wordFlavour equalsKind ?_
    exact valueComplete.expression (valueDerives.spelled rfl) stopEnds rfl (by grind)
  | unassigned valueDerives ends valueComplete =>
    rintro count stop ahead stopEnds rfl bounded
    exact assignment_of_unassigned stopEnds (valueComplete stopEnds rfl bounded) ends
  | choice testDerives questionKind consequentDerives colonKind alternateDerives testComplete
      consequentComplete alternateComplete =>
    rintro count stop ahead stopEnds rfl (bounded : _ ≤ count + 1)
    refine ternaryForm_of_choice (testComplete stopEnds (by simp) bounded) questionKind
      (consequentComplete stopEnds rfl ?_) colonKind ?_
    · exact Nat.le_succ_of_le (by grind)
    · exact alternateComplete.ternary (alternateDerives.spelled rfl) stopEnds rfl (by grind)
  | unchosen valueDerives ends valueComplete =>
    rintro count stop ahead stopEnds rfl bounded
    exact ternaryForm_of_unchosen stopEnds (valueComplete stopEnds rfl bounded) ends
  | operand valueDerives valueComplete =>
    rintro count stop ahead stopEnds rfl bounded
    have valueRead := valueComplete stopEnds rfl bounded
    refine ⟨_, Nat.le_refl _, ?_⟩
    rw [parser_chain, bind_of_ok valueRead]
    rfl
  | operation leftDerives signOperation rightDerives leftComplete rightComplete =>
    rintro count stop ahead stopEnds rfl (bounded : _ ≤ count + 1)
    obtain ⟨bound, roomy, leftRead⟩ := leftComplete stopEnds (by simp) bounded
    have rightRead : Reads count stop (.expression _) _ _ _ :=
      rightComplete.reads stopEnds rfl (by grind)
    refine exists_bound_of_extension roomy leftRead
      (Option.map_eq_some_iff.mpr ⟨_, signOperation, rfl⟩) (bind_of_ok rightRead _) ?_
    simp
  | chain valueDerives ends valueComplete =>
    rintro count stop ahead stopEnds rfl bounded
    obtain ⟨bound, _, valueRead⟩ := valueComplete stopEnds rfl bounded
    refine valueRead.trans (extendUpTo_of_end ?_ ?_ bound _)
    · rw [Chain.extension?, Chain.operation?_of_eof _ stopEnds, Option.map_none]
    · exact (Chain.bind_extension?_eq_none ..).mpr ends
  | leading signOperation operandDerives operandComplete =>
    rintro count stop ahead stopEnds rfl bounded
    refine unaryForm_of_leading signOperation ?_
    exact operandComplete.unary (operandDerives.spelled rfl) stopEnds rfl
      (Nat.le_of_succ_le_succ bounded)
  | trailing operandDerives signOperation operandComplete =>
    rintro count stop ahead stopEnds rfl bounded
    refine unaryForm_of_trailing ?_ (operandComplete stopEnds (by simp) bounded) signOperation
    rw [List.append_assoc]
    exact leading?_of_suffixed operandDerives _ _
  | unstepped valueDerives ends valueComplete =>
    rintro count stop ahead stopEnds rfl bounded
    exact unaryForm_of_unstepped stopEnds (leading?_of_suffixed valueDerives _ _)
      (valueComplete stopEnds rfl bounded) ends
  | suffixed valueDerives ends valueComplete =>
    rintro count stop ahead stopEnds rfl bounded
    obtain ⟨bound, _, valueRead⟩ := valueComplete stopEnds rfl bounded
    refine valueRead.trans (extendUpTo_of_end ?_ ?_ bound _)
    · simp [Rules.suffix?, stopEnds]
    · exact (endsAccesses_iff ..).mp ends
  | subject valueDerives valueComplete =>
    rintro count stop ahead stopEnds rfl bounded
    have valueRead := valueComplete stopEnds rfl bounded
    refine ⟨_, Nat.le_refl _, ?_⟩
    rw [Rules.callOrMember]
    exact bind_of_ok valueRead _
  | call calleeDerives openingKind argumentsDerive calleeComplete argumentsComplete =>
    rintro count stop ahead stopEnds rfl (bounded : _ ≤ count + 1)
    obtain ⟨bound, roomy, calleeRead⟩ := calleeComplete stopEnds (by simp) bounded
    have argumentsRead : Reads count stop (.list .closeParen .value) _ _ _ :=
      argumentsComplete.reads stopEnds rfl (by grind)
    obtain ⟨_, extends?, read⟩ := suffix?_of_call openingKind (argumentsRead (Or.inl rfl)) _
    exact exists_bound_of_extension roomy calleeRead extends? read (by simp)
  | member subjectDerives dotKind keyKind subjectComplete =>
    rintro count stop ahead stopEnds rfl bounded
    obtain ⟨bound, roomy, subjectRead⟩ := subjectComplete stopEnds (by simp) bounded
    obtain ⟨_, extends?, read⟩ := suffix?_of_member stopEnds dotKind keyKind _ _
    exact exists_bound_of_extension roomy subjectRead extends? read (by simp)
  | index subjectDerives openingKind newlinesBefore keyDerives newlinesBehind closingKind
      subjectComplete keyComplete =>
    rintro count stop ahead stopEnds rfl (bounded : _ ≤ count + 1)
    obtain ⟨bound, roomy, subjectRead⟩ := subjectComplete stopEnds (by simp) bounded
    have keyRead := keyComplete.expression (keyDerives.spelled rfl) stopEnds rfl
      (show _ ≤ count by grind)
    obtain ⟨_, extends?, read⟩ := suffix?_of_index openingKind newlinesBefore
      (keyDerives.kindAhead_ne rfl rfl _) keyRead newlinesBehind closingKind _
    exact exists_bound_of_extension (by simpa using roomy) (by simpa using subjectRead) extends?
      read (by simp; omega)
  -- Values that are no operation.
  | name kind =>
    rintro count stop ahead stopEnds rfl bounded
    exact primary_of_name kind _
  | number kind reads =>
    rintro count stop ahead stopEnds rfl bounded
    exact primary_of_number kind reads _
  | text kind =>
    rintro count stop ahead stopEnds rfl bounded
    exact primary_of_text kind _
  | truth kind =>
    rintro count stop ahead stopEnds rfl bounded
    exact primary_of_truth kind _
  | falsehood kind =>
    rintro count stop ahead stopEnds rfl bounded
    exact primary_of_falsehood kind _
  | undefined kind =>
    rintro count stop ahead stopEnds rfl bounded
    exact primary_of_undefined kind _
  | typeof keywordKind operandDerives operandComplete =>
    rintro count stop ahead stopEnds rfl bounded
    refine primary_of_typeof keywordKind ?_
    exact operandComplete.unary (operandDerives.spelled rfl) stopEnds rfl
      (Nat.le_of_succ_le_succ bounded)
  | lambda valueDerives valueComplete =>
    rintro count stop ahead stopEnds rfl bounded
    refine (primary_of_function ?_).trans (valueComplete stopEnds rfl bounded)
    simpa [Form.begins] using valueDerives.begins_append rfl _
  | grouped openingKind newlinesBefore valueDerives newlinesBehind closingKind valueComplete =>
    rintro count stop ahead stopEnds rfl (bounded : _ ≤ count + 1)
    have valueRead := valueComplete.expression (valueDerives.spelled rfl) stopEnds rfl
      (show _ ≤ count by grind)
    have read := primary_of_grouped openingKind newlinesBefore
      (valueDerives.kindAhead_ne rfl rfl _) valueRead newlinesBehind closingKind
    simpa [Reads, Level.parser] using read
  | array openingKind itemsDerive itemsComplete =>
    rintro count stop ahead stopEnds rfl (bounded : _ ≤ count + 1)
    have itemsRead : Reads count stop (.list .closeBracket .value) _ _ _ :=
      itemsComplete.reads stopEnds rfl (by grind)
    exact primary_of_array openingKind (itemsRead (Or.inr (Or.inl rfl)))
  | object openingKind fieldsDerive fieldsComplete =>
    rintro count stop ahead stopEnds rfl (bounded : _ ≤ count + 1)
    have fieldsRead : Reads count stop (.list .closeBrace .field) _ _ _ :=
      fieldsComplete.reads stopEnds rfl (by grind)
    exact primary_of_object openingKind (fieldsRead (Or.inr (Or.inr rfl)))
  -- Functions.
  | calledOnTheSpot keywordKind colonKind₁ colonKind₂ valueDerives valueComplete =>
    rintro count stop ahead stopEnds rfl bounded
    refine function_of_calledOnTheSpot _ _ colonKind₁ colonKind₂ ?_
    exact valueComplete.expression (valueDerives.spelled rfl) stopEnds rfl
      (Nat.le_of_succ_le (Nat.le_of_succ_le (Nat.le_of_succ_le_succ bounded)))
  | @betweenColons exported _ _ _ keyword _ _ _ _ keywordKind colonKind₁ parametersDerive
      parametersSpelled colonKind₂ valueDerives parametersComplete valueComplete =>
    rintro count stop ahead stopEnds rfl (bounded : _ ≤ count + 1)
    have parametersRead : Reads count stop .parameters _ _ _ :=
      parametersComplete.reads stopEnds rfl (by grind)
    have valueRead := valueComplete.ternary (valueDerives.spelled rfl) stopEnds rfl
      (show _ ≤ count by grind)
    have read := function_of_betweenColons stopEnds exported keyword colonKind₁
      (noColon_of_parameters parametersDerive parametersSpelled _) parametersRead colonKind₂
      valueRead
    simpa only [Reads, List.cons_append, List.append_assoc] using read
  | @named exported _ _ _ _ _ _ _ keywordKind nameKind parametersDerive bodyDerives
      parametersComplete bodyComplete =>
    rintro count stop ahead stopEnds rfl (bounded : _ ≤ count + 1)
    have parametersRead : Reads count stop .parameters _ _ _ :=
      parametersComplete.reads stopEnds rfl (by grind)
    have bodyRead : Reads count stop .functionBody _ _ _ :=
      bodyComplete.reads stopEnds rfl (by grind)
    have read := function_of_named stopEnds exported keywordKind nameKind parametersRead bodyRead
    simpa only [Reads, List.cons_append, List.append_assoc] using read
  | @unnamed exported used₁ _ next _ _ _ keywordKind noColon parametersDerive bodyDerives
      parametersComplete bodyComplete =>
    rintro count stop ahead stopEnds rfl (bounded : _ ≤ count + 1)
    have parametersRead : Reads count stop .parameters _ _ _ :=
      parametersComplete.reads stopEnds rfl (by grind)
    have bodyRead : Reads count stop .functionBody _ _ _ :=
      bodyComplete.reads stopEnds rfl (by grind)
    have spelled := List.append_ne_nil_of_right_ne_nil used₁ (bodyDerives.spelled rfl)
    rw [← kindAhead_append next spelled, List.append_assoc] at keywordKind noColon
    have read := function_of_unnamed stopEnds exported keywordKind noColon parametersRead bodyRead
    simpa only [Reads, List.cons_append, List.append_assoc] using read
  | functionBlock blockDerives blockComplete =>
    rintro count stop ahead stopEnds rfl bounded
    have blockRead : Reads count stop .block _ _ _ := blockComplete stopEnds rfl bounded
    refine functionEnd_of_block stopEnds ?_ blockRead
    simpa [Form.begins] using blockDerives.begins_append rfl _
  | functionValue colonKind valueDerives valueComplete =>
    rintro count stop ahead stopEnds rfl bounded
    refine functionEnd_of_value stopEnds colonKind ?_
    exact valueComplete.ternary (valueDerives.spelled rfl) stopEnds rfl
      (Nat.le_of_succ_le_succ bounded)
  | listedParameters openingKind parametersDerive parametersComplete =>
    rintro count stop ahead stopEnds rfl (bounded : _ ≤ count + 1)
    have parametersRead : Reads count stop (.list .closeParen .parameter) _ _ _ :=
      parametersComplete.reads stopEnds rfl (by grind)
    exact parameters_of_list openingKind (parametersRead (Or.inl rfl))
  | unlistedParameters noList parametersDerive parametersComplete =>
    rintro count stop ahead stopEnds rfl bounded
    have parametersRead : Reads count stop .bareParameters _ _ _ :=
      parametersComplete stopEnds rfl bounded
    exact parameters_of_bare stopEnds noList (parametersRead _ (Nat.le_refl _))
  | noParameters ends =>
    rintro count stop ahead stopEnds rfl bounded bound _
    exact bareParameters_of_end (by rwa [kind_headD stopEnds]) bound
  | requiredParameters nameKind noDefault othersDerive othersComplete =>
    rintro count stop ahead stopEnds rfl (bounded : _ ≤ count + 1) bound roomy
    have othersRead : Reads count stop .bareParameters _ _ _ :=
      othersComplete.reads stopEnds rfl (by grind)
    cases bound with
    | nil => exact absurd roomy (by simp)
    | cons _ bound =>
      exact bareParameters_of_required stopEnds nameKind noDefault
        (othersRead bound (Nat.le_of_succ_le_succ roomy)) _
  | optionalParameters nameKind equalsKind openingKind defaultDerives closingKind othersDerive
      defaultComplete othersComplete =>
    rintro count stop ahead stopEnds rfl (bounded : _ ≤ count + 1) bound roomy
    have defaultRead := defaultComplete.expression (defaultDerives.spelled rfl) stopEnds rfl
      (show _ ≤ count by grind)
    have othersRead : Reads count stop .bareParameters _ _ _ :=
      othersComplete.reads stopEnds rfl (by grind)
    cases bound with
    | nil => exact absurd roomy (by simp)
    | cons placeholder bound =>
      have othersReadUpTo := othersRead bound (by
        simp only [List.length_append, List.length_cons] at roomy ⊢
        omega)
      have read := bareParameters_of_optional stopEnds nameKind equalsKind openingKind defaultRead
        closingKind othersReadUpTo placeholder
      simpa only [List.cons_append, List.append_assoc] using read
  -- Lists.
  | value valueDerives valueComplete =>
    rintro count stop ahead stopEnds rfl bounded
    exact valueComplete.expression (valueDerives.spelled rfl) stopEnds rfl bounded
  | field keyKind newlinesBefore colonKind newlinesBehind valueDerives valueComplete =>
    rintro count stop ahead stopEnds rfl (bounded : _ ≤ count)
    have valueRead := valueComplete.expression (valueDerives.spelled rfl) stopEnds rfl
      (show _ ≤ count by grind)
    have read := field_of_pair keyKind newlinesBefore colonKind newlinesBehind
      (valueDerives.kindAhead_ne rfl rfl _) valueRead
    simpa only [Reads, Item.parser, List.cons_append, List.append_assoc] using read
  | shorthand keyKind newlinesBehind ends =>
    rintro count stop ahead stopEnds rfl bounded
    exact field_of_shorthand stopEnds keyKind newlinesBehind ends
  | requiredParameter nameKind noDefault =>
    rintro count stop ahead stopEnds rfl bounded
    exact parameter_of_required stopEnds nameKind noDefault
  | optionalParameter nameKind equalsKind defaultDerives defaultComplete =>
    rintro count stop ahead stopEnds rfl bounded
    refine parameter_of_optional nameKind equalsKind ?_
    exact defaultComplete.ternary (defaultDerives.spelled rfl) stopEnds rfl
      (Nat.le_of_succ_le (Nat.le_of_succ_le bounded))
  | @list mark item _ _ _ _ newlinesBefore itemsDerive itemsComplete =>
    rintro count stop ahead stopEnds rfl (bounded : _ ≤ count) isClosing message
    have itemsRead : Reads count stop (.items mark item) _ _ _ :=
      itemsComplete.reads stopEnds rfl (by grind)
    obtain ⟨closing, closingKind, read⟩ :=
      itemsRead isClosing (_ :: (_ ++ _)) (Nat.le_succ _)
    rw [List.append_assoc]
    exact listUpTo_of_items newlinesBefore
      (itemsDerive.kindAhead_ne (items_begins_eof ..) (items_begins_newline ..) _) read
      closingKind message
  | noItems closingKind =>
    rintro count stop ahead stopEnds rfl bounded isClosing bound roomy
    cases bound with
    | nil => exact absurd roomy (by simp)
    | cons _ bound => exact ⟨_, closingKind, itemsUpTo_of_none stopEnds closingKind _ _ _ _⟩
  | @lastItem mark item _ _ _ _ _ lastDerives newlinesBehind closingKind lastComplete =>
    rintro count stop ahead stopEnds rfl (bounded : _ ≤ count) isClosing bound roomy
    cases bound with
    | nil => exact absurd roomy (by simp)
    | cons placeholder bound =>
      have lastRead : Reads count stop (.item item) _ _ _ :=
        lastComplete.reads stopEnds rfl (by grind)
      have noComma : mark ≠ .comma := by
        rcases isClosing with rfl | rfl | rfl <;> simp
      have read := itemsUpTo_of_last stopEnds noComma
        (lastDerives.kindAhead_ne item.begins_eof (item.begins_mark_of_closes isClosing) _)
        lastRead newlinesBehind closingKind placeholder bound
      exact ⟨_, closingKind, by simpa using read⟩
  | @moreItems mark item _ _ _ _ _ _ _ _ firstDerives newlinesBefore commaKind newlinesBehind
      othersDerive firstComplete othersComplete =>
    rintro count stop ahead stopEnds rfl (bounded : _ ≤ count) isClosing bound roomy
    cases bound with
    | nil => exact absurd roomy (by simp)
    | cons placeholder bound =>
      have firstRead : Reads count stop (.item item) _ _ _ :=
        firstComplete.reads stopEnds rfl (by grind)
      have othersRead : Reads count stop (.items mark item) _ _ _ :=
        othersComplete.reads stopEnds rfl (by grind)
      obtain ⟨closing, closingKind, othersReadUpTo⟩ := othersRead isClosing bound (by
        simp only [List.length_append, List.length_cons] at roomy ⊢
        omega)
      have read := itemsUpTo_of_more stopEnds
        (firstDerives.kindAhead_ne item.begins_eof (item.begins_mark_of_closes isClosing) _)
        (by simpa [Reads] using firstRead) newlinesBefore commaKind newlinesBehind
        (othersDerive.kindAhead_ne (items_begins_eof ..) (items_begins_newline ..) _)
        othersReadUpTo placeholder
      exact ⟨closing, closingKind, by simpa using read⟩
  -- Blocks and statements.
  | block openingKind separated statementsDerive closingKind statementsComplete =>
    rintro count stop ahead stopEnds rfl (bounded : _ ≤ count + 1)
    have statementsRead : Reads count stop .statements _ _ _ :=
      statementsComplete.reads stopEnds rfl (by grind)
    obtain ⟨noNewline, noSemicolon⟩ := noSeparator_of_statements statementsDerive
    have read := block_of_statements openingKind
      (statements_of_ahead separated noNewline noSemicolon
        (statementsRead Rules.endsBlock endsBlock_of_begins
          (by simp [Rules.endsBlock, closingKind]) _ (Nat.le_refl _)))
      closingKind
    simpa [Reads] using read
  | bodyBlock blockDerives blockComplete =>
    rintro count stop ahead stopEnds rfl bounded
    have blockRead : Reads count stop .block _ _ _ := blockComplete stopEnds rfl bounded
    refine body_of_block stopEnds ?_ blockRead
    simpa [Form.begins] using blockDerives.begins_append rfl _
  | bodyStatement colonKind statementDerives statementComplete =>
    rintro count stop ahead stopEnds rfl bounded
    refine body_of_statement stopEnds colonKind ?_
    exact statementComplete.statement (statementDerives.spelled rfl) stopEnds rfl
      (Nat.le_of_succ_le_succ bounded)
  | noStatements ends =>
    rintro count stop ahead stopEnds rfl bounded isEnd _ atEnd bound _
    exact statementsUpTo_of_end atEnd _ bound
  | moreStatements firstDerives separated othersDerive firstComplete othersComplete =>
    rintro count stop ahead stopEnds rfl (bounded : _ ≤ count) isEnd noStatement atEnd bound roomy
    have firstSpelled := List.length_pos_iff.mpr (firstDerives.spelled rfl)
    cases bound with
    | nil =>
      simp only [List.length_append, List.length_nil] at roomy
      omega
    | cons placeholder bound =>
      have firstRead := firstComplete.statement (firstDerives.spelled rfl) stopEnds rfl
        (show _ ≤ count by grind)
      have othersRead : Reads count stop .statements _ _ _ :=
        othersComplete.reads stopEnds rfl (by grind)
      have othersReadUpTo := othersRead isEnd noStatement atEnd bound (by
        simp only [List.length_append, List.length_cons] at roomy ⊢
        omega)
      obtain ⟨noNewline, noSemicolon⟩ := noSeparator_of_statements othersDerive
      rw [List.append_assoc, List.append_assoc]
      refine statementsUpTo_of_more (noStatement _ ?_)
        (by simpa only [List.append_assoc] using firstRead) separated noNewline noSemicolon
        othersReadUpTo placeholder
      rw [kind_headD stopEnds]
      exact firstDerives.begins_append rfl _
  | ended statementDerives semicolonKind statementComplete =>
    rintro count stop ahead stopEnds rfl bounded
    have statementRead : Reads count stop .bareStatement _ _ _ :=
      statementComplete stopEnds rfl (by simpa [Form.spare] using bounded)
    have read := statementForm_of_ended statementRead semicolonKind
    simpa [Reads] using read
  | unended statementDerives noSemicolon statementComplete =>
    rintro count stop ahead stopEnds rfl bounded
    exact statementForm_of_unended stopEnds (statementComplete stopEnds rfl bounded) noSemicolon
  | branchStatement branchDerives branchComplete =>
    rintro count stop ahead stopEnds rfl bounded
    have branchRead : Reads count stop .branch _ _ _ := branchComplete stopEnds rfl bounded
    have branchBegins := branchDerives.begins
    rw [Form.begins, decide_eq_true_eq] at branchBegins
    obtain ⟨keyword, rest, rfl, keywordKind⟩ := exists_cons_of_kindAhead branchBegins (by simp)
    exact (bareStatement_of_branch keywordKind _).trans branchRead
  | whileLoop keywordKind testDerives bodyDerives testComplete bodyComplete =>
    rintro count stop ahead stopEnds rfl (bounded : _ ≤ count + 1)
    have testRead := testComplete.expression (testDerives.spelled rfl) stopEnds rfl
      (show _ ≤ count by grind)
    have bodyRead : Reads count stop .body _ _ _ := bodyComplete.reads stopEnds rfl (by grind)
    have read := bareStatement_of_while keywordKind testRead bodyRead
    simpa only [Reads, List.cons_append, List.append_assoc] using read
  | forLoop keywordKind startDerives semicolonKind₁ testDerives semicolonKind₂ updateDerives
      bodyDerives startComplete testComplete updateComplete bodyComplete =>
    rintro count stop ahead stopEnds rfl (bounded : _ ≤ count + 1)
    have startRead := startComplete.expression (startDerives.spelled rfl) stopEnds rfl
      (show _ ≤ count by grind)
    have testRead := testComplete.expression (testDerives.spelled rfl) stopEnds rfl
      (show _ ≤ count by grind)
    have updateRead := updateComplete.expression (updateDerives.spelled rfl) stopEnds rfl
      (show _ ≤ count by grind)
    have bodyRead : Reads count stop .block _ _ _ := bodyComplete.reads stopEnds rfl (by grind)
    have read := bareStatement_of_for keywordKind startRead semicolonKind₁
      (by simpa only [List.append_assoc] using testRead) semicolonKind₂
      (by simpa only [List.append_assoc] using updateRead) bodyRead
    simpa only [Reads, List.cons_append, List.append_assoc] using read
  | returnValue keywordKind valueDerives valueComplete =>
    rintro count stop ahead stopEnds rfl bounded
    refine bareStatement_of_returnValue stopEnds keywordKind (valueDerives.begins_append rfl _) ?_
    exact valueComplete.expression (valueDerives.spelled rfl) stopEnds rfl
      (Nat.le_of_succ_le_succ bounded)
  | returnNothing keywordKind ends =>
    rintro count stop ahead stopEnds rfl bounded
    exact bareStatement_of_returnNothing stopEnds keywordKind ends
  | debugList keywordKind openingKind valuesDerive valuesComplete =>
    rintro count stop ahead stopEnds rfl (bounded : _ ≤ count + 1)
    have valuesRead : Reads count stop (.list .closeBrace .value) _ _ _ :=
      valuesComplete.reads stopEnds rfl (by grind)
    exact bareStatement_of_debugList keywordKind openingKind (valuesRead (Or.inr (Or.inr rfl)))
  | debugValue keywordKind noList valueDerives valueComplete =>
    rintro count stop ahead stopEnds rfl bounded
    rw [← kindAhead_append _ (valueDerives.spelled rfl)] at noList
    refine bareStatement_of_debugValue stopEnds keywordKind noList ?_
    exact valueComplete.expression (valueDerives.spelled rfl) stopEnds rfl
      (Nat.le_of_succ_le_succ bounded)
  | use keywordKind pathKind =>
    rintro count stop ahead stopEnds rfl bounded
    exact bareStatement_of_use keywordKind pathKind _
  | exported keywordKind functionKind functionDerives functionComplete =>
    rintro count stop ahead stopEnds rfl bounded
    rw [← kindAhead_append _ (functionDerives.spelled rfl)] at functionKind
    exact bareStatement_of_exported stopEnds keywordKind functionKind
      (functionComplete stopEnds rfl (Nat.le_of_succ_le bounded))
  | expressionStatement valueDerives valueComplete =>
    rintro count stop ahead stopEnds rfl bounded
    exact bareStatement_of_value stopEnds (valueDerives.begins_append rfl _)
      (valueComplete stopEnds rfl bounded)
  | @ifElse _ _ _ _ _ keyword _ _ _ _ keywordKind testDerives consequentDerives newlinesBefore
      otherwiseKind alternateDerives testComplete consequentComplete alternateComplete =>
    rintro count stop ahead stopEnds rfl (bounded : _ ≤ count + 1)
    have testRead := testComplete.expression (testDerives.spelled rfl) stopEnds rfl
      (show _ ≤ count by grind)
    have consequentRead : Reads count stop .body _ _ _ :=
      consequentComplete.reads stopEnds rfl (by grind)
    have alternateRead : Reads count stop .alternative _ _ _ :=
      alternateComplete.reads stopEnds rfl (by grind)
    have read := branchForm_of_else keyword testRead
      (by simpa only [Reads, List.append_assoc] using consequentRead) newlinesBefore otherwiseKind
      alternateRead
    simpa only [Reads, List.cons_append, List.append_assoc] using read
  | @ifOnly _ _ _ keyword _ _ keywordKind testDerives consequentDerives noElse testComplete
      consequentComplete =>
    rintro count stop ahead stopEnds rfl (bounded : _ ≤ count + 1)
    have testRead := testComplete.expression (testDerives.spelled rfl) stopEnds rfl
      (show _ ≤ count by grind)
    have consequentRead : Reads count stop .body _ _ _ :=
      consequentComplete.reads stopEnds rfl (by grind)
    have read := branchForm_of_end stopEnds keyword testRead consequentRead noElse
    simpa only [Reads, List.cons_append, List.append_assoc] using read
  | elseIf branchDerives branchComplete =>
    rintro count stop ahead stopEnds rfl bounded
    refine alternative_of_branch stopEnds ?_
      (branchComplete.branch (branchDerives.spelled rfl) stopEnds rfl bounded)
    simpa [Form.begins] using branchDerives.begins_append rfl _
  | elseBlock blockDerives blockComplete =>
    rintro count stop ahead stopEnds rfl bounded
    refine alternative_of_block stopEnds ?_
      (blockComplete stopEnds rfl (Nat.le_succ_of_le bounded))
    simpa [Form.begins] using blockDerives.begins_append rfl _
  | elseColon colonKind statementDerives statementComplete =>
    rintro count stop ahead stopEnds rfl bounded
    refine alternative_of_colon stopEnds colonKind ?_
    exact statementComplete.statement (statementDerives.spelled rfl) stopEnds rfl
      (Nat.le_of_succ_le bounded)
  | elseStatement noBranch noBlock statementDerives statementComplete =>
    rintro count stop ahead stopEnds rfl bounded
    rw [← kindAhead_append _ (statementDerives.spelled rfl)] at noBranch noBlock
    exact alternative_of_statement stopEnds noBranch noBlock
      (statementDerives.kindAhead_ne rfl rfl _)
      (statementComplete.statement (statementDerives.spelled rfl) stopEnds rfl bounded)
  | program separated statementsDerive statementsComplete =>
    rintro count stop ahead stopEnds rfl (bounded : _ ≤ count)
    have statementsRead : Reads count stop .statements _ _ _ :=
      statementsComplete.reads stopEnds rfl (by grind)
    obtain ⟨noNewline, noSemicolon⟩ := noSeparator_of_statements statementsDerive
    have read := statements_of_ahead separated noNewline noSemicolon
      (statementsRead (·.kind == .eof) ne_eof_of_begins (by simp [stopEnds]) _ (Nat.le_refl _))
    simpa only [Reads, List.append_assoc] using read

/-! ## Whole programs -/

/-- A program that the tokens before the first that ends the source have a derivation of takes all
of these. -/
theorem statements_of_derives
    {tokens : List Token}
    {program : Program}
    (derives : Derives .program (Program.tokensAhead tokens) program []) :
    Rules.statements (Rules.upTo (Program.tokensAhead tokens).length).statement (·.kind == .eof)
      (Program.endToken tokens) (Program.tokensAhead tokens) = .ok (program, []) :=
  derives.complete (endToken_kind tokens) (List.append_nil _).symm (Nat.le_refl _)

/-- So it is read. -/
theorem ofTokens_of_derives
    {tokens : List Token}
    {program : Program}
    (derives : Derives .program (Program.tokensAhead tokens) program []) :
    Program.ofTokens tokens = .ok program :=
  (ofTokens_eq_ok ..).mpr ⟨[], statements_of_derives derives⟩

/-- A text that is a program has tokens that are. -/
theorem exists_tokens_of_ofSource
    {source : String}
    {program : Program}
    (ok : Program.ofSource source = .ok program) :
    ∃ tokens, Token.scan source = .ok tokens ∧ Program.ofTokens tokens = .ok program := by
  unfold Program.ofSource at ok
  cases scanned : Token.scan source with
  | error diagnostic =>
    rw [scanned] at ok
    cases ok
  | ok tokens =>
    refine ⟨tokens, rfl, ?_⟩
    rw [scanned] at ok
    change (Program.ofTokens tokens).mapError _ = _ at ok
    cases outcome : Program.ofTokens tokens with
    | error diagnostic =>
      rw [outcome] at ok
      cases ok
    | ok found =>
      rw [outcome] at ok
      cases ok
      rfl

/-- A text whose tokens have a derivation of a program is that program. -/
theorem ofSource_of_derives
    {source : String}
    {tokens : List Token}
    {program : Program}
    (scanned : Token.scan source = .ok tokens)
    (derives : Derives .program (Program.tokensAhead tokens) program []) :
    Program.ofSource source = .ok program := by
  have bound : (Token.scan source >>= Program.ofTokens) = .ok program := by
    rw [scanned]
    exact ofTokens_of_derives derives
  rw [Program.ofSource, bound]
  rfl

/-- Tokens are read as a program exactly if those before the first that ends the source are a
derivation of it. -/
theorem ofTokens_eq_ok_iff_derives
    (tokens : List Token)
    (program : Program) :
    Program.ofTokens tokens = .ok program ↔
      Derives .program (Program.tokensAhead tokens) program [] :=
  ⟨ofTokens_sound, ofTokens_of_derives⟩

/-- A trailing operator is read behind any operand, although it can only change a name. -/
theorem ofTokens_step_behind_literal :
    ∃ operand, (∀ position name, operand ≠ Expr.name position name) ∧
      Program.ofTokens
        [⟨.keyword .trueWord, "true", .start⟩, ⟨.sign .increment, "++", .start⟩,
          ⟨.eof, "", .start⟩] =
        .ok [.expr .start (.step .start .behind .increment operand)] :=
  ⟨.bool .start true, nofun, rfl⟩

end Grammar
end TinyScript
