import TinyScript.Proofs.Grammar.Spelling

/-!
# Forms at other places and before other tokens

A grammar production reads the kinds and the texts of tokens, never their places.  So tokens that
are a form are the same form, up to positions, wherever they are placed (`Derives.moved`).
-/

namespace TinyScript
namespace Grammar

/-! ## The same tokens at other places -/

/-- Tokens that are the same as others but for positions have a first one if these do. -/
theorem exists_cons_of_erase
    {tokens rest : List Token}
    {token : Token}
    (same : tokens.map Token.erase = (token :: rest).map Token.erase) :
    ∃ token' rest', tokens = token' :: rest' ∧ token'.erase = token.erase ∧
      rest'.map Token.erase = rest.map Token.erase :=
  List.map_eq_cons_iff.1 same

/-- Tokens that are the same as others but for positions fall into the same parts. -/
theorem exists_append_of_erase
    {tokens left right : List Token}
    (same : tokens.map Token.erase = (left ++ right).map Token.erase) :
    ∃ left' right', tokens = left' ++ right' ∧ left'.map Token.erase = left.map Token.erase ∧
      right'.map Token.erase = right.map Token.erase := by
  rw [List.map_append] at same
  exact List.map_eq_append_iff.1 same

theorem kind_of_erase_eq
    {token' token : Token}
    (same : token'.erase = token.erase) :
    token'.kind = token.kind := by
  change token'.erase.kind = token.erase.kind
  rw [same]

theorem lexeme_of_erase_eq
    {token' token : Token}
    (same : token'.erase = token.erase) :
    token'.lexeme = token.lexeme := by
  change token'.erase.lexeme = token.erase.lexeme
  rw [same]

/-- What reads the kind and the text of a token finds the same in it at another place. -/
theorem read?_of_erase
    {β : Type}
    {read? : Token → Option β}
    (stable : ∀ token : Token, read? token.erase = read? token)
    {token' token : Token}
    (same : token'.erase = token.erase)
    {result : β}
    (found : read? token = some result) :
    read? token' = some result := by
  rw [← stable, same, stable, found]

/-- An operator before its operand is one at another place too. -/
theorem exists_leading_of_erase
    {sign' sign : Token}
    {operation : Expr → Expr}
    (same : sign'.erase = sign.erase)
    (found : Rules.leading? sign = some operation) :
    ∃ operation', Rules.leading? sign' = some operation' ∧
      ∀ operand' operand : Expr, operand'.erase = operand.erase →
        (operation' operand').erase = (operation operand).erase := by
  unfold Rules.leading? at found ⊢
  rw [kind_of_erase_eq same, lexeme_of_erase_eq same]
  repeat' split at found
  all_goals cases found
  all_goals simp_all [Expr.erase, Expr.relabel]

section Ahead

variable {next' next : List Token} (same : next'.map Token.erase = next.map Token.erase)

include same

theorem kindAhead_of_erase :
    kindAhead next' = kindAhead next := by
  have erased (tokens : List Token) : kindAhead (tokens.map Token.erase) = kindAhead tokens :=
    kindAhead_map_relabel tokens
  rw [← erased next', same, erased]

/-- What the next token is read as does not depend on its position. -/
theorem bind_head?_of_erase
    {β : Type}
    {read? : Token → Option β}
    (stable : ∀ token : Token, read? token.erase = read? token) :
    next'.head?.bind read? = next.head?.bind read? := by
  rw [← bind_head?_map_relabel stable next', ← bind_head?_map_relabel stable next]
  exact congrArg (·.head?.bind read?) same

theorem separators_of_erase
    (separators : Separators next) :
    Separators next' := by
  intro token mem
  have erased : token.erase ∈ next.map Token.erase := by
    rw [← same]
    exact List.mem_map_of_mem mem
  exact separators_map_relabel separators token.erase erased

/-- Whether an assignment ends does not depend on positions. -/
theorem EndsAssignment.of_erase
    (ends : EndsAssignment next) :
    EndsAssignment next' where
  noAssign := by
    rw [kindAhead_of_erase same]
    exact ends.noAssign
  noCompound := by
    rw [bind_head?_of_erase same fun _ => rfl]
    exact ends.noCompound
  noDeclaration := by
    have erased (tokens : List Token) : declared? (tokens.map Token.erase) = declared? tokens :=
      declared?_map_relabel tokens
    rw [← erased next', same, erased]
    exact ends.noDeclaration

/-- Whether suffixes end does not depend on positions. -/
theorem EndsAccesses.of_erase
    (ends : EndsAccesses next) :
    EndsAccesses next' where
  noCall := by
    rw [kindAhead_of_erase same]
    exact ends.noCall
  noMember := by
    rw [kindAhead_of_erase same]
    exact ends.noMember
  noIndex := by
    rw [kindAhead_of_erase same]
    exact ends.noIndex

theorem dropWhile_of_erase :
    (next'.dropWhile (·.kind == .newline)).map Token.erase =
      (next.dropWhile (·.kind == .newline)).map Token.erase := by
  have dropped (tokens : List Token) :
      (tokens.map Token.erase).dropWhile (·.kind == .newline) =
        (tokens.dropWhile (·.kind == .newline)).map Token.erase :=
    dropWhile_map_relabel tokens
  rw [← dropped, ← dropped, same]

/-- The same tokens may stand before both. -/
theorem erase_append
    {used' used : List Token}
    (usedSame : used'.map Token.erase = used.map Token.erase) :
    (used' ++ next').map Token.erase = (used ++ next).map Token.erase := by
  rw [List.map_append, List.map_append, usedSame, same]

/-- The same token may stand before both. -/
theorem erase_cons
    {token' token : Token}
    (tokenSame : token'.erase = token.erase) :
    (token' :: next').map Token.erase = (token :: next).map Token.erase := by
  rw [List.map_cons, List.map_cons, tokenSame, same]

end Ahead

/-! ## Derivations -/

/-- A form is the same form wherever it and what lies behind it are placed. -/
theorem Derives.moved
    {form : Form}
    {used next : List Token}
    {tree : form.Tree}
    (derives : Derives form used tree next) :
    Spells form (used.map Token.erase) tree
      (fun ahead => ahead.map Token.erase = next.map Token.erase) := by
  induction derives with
  -- Expressions, from loosest to tightest.
  | assign _ equalsKind _ target value =>
    rw [List.map_append, List.map_cons]
    exact .assign (by simpa using target) equalsKind value
  | compoundAssign _ signOperation _ target value =>
    intro used next same behind
    obtain ⟨used₁, tail, rfl, same₁, tailSame⟩ := exists_append_of_erase same
    obtain ⟨sign, used₂, rfl, signSame, same₂⟩ := exists_cons_of_erase tailSame
    obtain ⟨_, targetDerives, targetSame⟩ :=
      target used₁ _ same₁ (erase_cons (erase_append behind same₂) signSame)
    obtain ⟨_, valueDerives, valueSame⟩ := value used₂ next same₂ behind
    refine ⟨_, .compoundAssign targetDerives
      (read?_of_erase (fun _ => rfl) signSame signOperation) valueDerives, ?_⟩
    simp only [Form.relabel, Expr.relabel] at targetSame valueSame ⊢
    rw [targetSame, valueSame]
  | declare _ colonKind wordFlavour equalsKind _ target value =>
    rw [List.map_append, List.map_cons, List.map_cons, List.map_cons]
    exact .declare (by simpa using target) colonKind wordFlavour equalsKind value
  | unassigned _ ends value =>
    intro used next same behind
    obtain ⟨_, valueDerives, valueSame⟩ := value used next same behind
    exact ⟨_, .unassigned valueDerives (ends.of_erase behind), valueSame⟩
  | choice _ questionKind _ colonKind _ test consequent alternate =>
    rw [List.map_append, List.map_cons, List.map_append, List.map_cons]
    exact .choice (by simpa using test) questionKind (by simpa using consequent) colonKind alternate
  | unchosen _ ends value =>
    intro used next same behind
    obtain ⟨_, valueDerives, valueSame⟩ := value used next same behind
    refine ⟨_, .unchosen valueDerives ?_, valueSame⟩
    rwa [kindAhead_of_erase behind]
  | operand _ value => exact value.operand
  | operation _ signOperation _ left right =>
    rw [List.map_append, List.map_cons]
    exact .operation (by simpa using left) ((Chain.operation?_relabel ..).trans signOperation) right
  | chain _ ends value =>
    refine value.chain fun ahead behind => ?_
    rwa [bind_head?_of_erase behind (Chain.operation?_relabel _)]
  | leading signOperation _ operand =>
    exact operand.leading fun _ same => exists_leading_of_erase same signOperation
  | trailing _ signOperation operand =>
    rw [List.map_append]
    exact .trailing (by simpa using operand) signOperation
  | unstepped _ ends value =>
    intro used next same behind
    obtain ⟨_, valueDerives, valueSame⟩ := value used next same behind
    refine ⟨_, .unstepped valueDerives ?_, valueSame⟩
    rwa [bind_head?_of_erase behind fun _ => rfl]
  | suffixed _ ends value => exact value.suffixed fun _ behind => ends.of_erase behind
  | subject _ value => exact value.subject
  | call _ openingKind _ callee arguments =>
    rw [List.map_append, List.map_cons]
    exact .call (by simpa using callee) openingKind arguments
  | member _ dotKind keyKind subject =>
    rw [List.map_append]
    exact .member (by simpa using subject) dotKind keyKind
  | index _ openingKind newlinesBefore _ newlinesBehind closingKind subject key =>
    simp only [List.map_append, List.map_cons]
    exact .index (by simpa using subject) openingKind (newlines_map_relabel newlinesBefore)
      (by simpa using key) (newlines_map_relabel newlinesBehind) closingKind
  -- Values that are no operation.
  | name kind => exact spells_name kind
  | number kind reads => exact spells_number kind reads
  | text kind => exact spells_text kind
  | truth kind => exact spells_truth kind
  | falsehood kind => exact spells_falsehood kind
  | undefined kind => exact spells_undefined kind
  | typeof keywordKind _ operand => exact operand.typeof keywordKind
  | lambda _ value => exact value.lambda
  | grouped openingKind newlinesBefore _ newlinesBehind closingKind value =>
    simp only [List.map_append, List.map_cons]
    exact .grouped openingKind (newlines_map_relabel newlinesBefore) (by simpa using value)
      (newlines_map_relabel newlinesBehind) closingKind
  | array openingKind _ items => exact items.array openingKind
  | object openingKind _ fields => exact fields.object openingKind
  -- Functions.
  | calledOnTheSpot keywordKind colonKind₁ colonKind₂ _ value =>
    exact value.calledOnTheSpot keywordKind colonKind₁ colonKind₂
  | betweenColons keywordKind colonKind₁ _ parametersSpelled colonKind₂ _ parameters value =>
    intro used next same behind
    obtain ⟨keyword, tail, rfl, keywordSame, tailSame⟩ := exists_cons_of_erase same
    obtain ⟨colon₁, tail, rfl, colonSame₁, tailSame⟩ := exists_cons_of_erase tailSame
    obtain ⟨used₁, tail, rfl, same₁, tailSame⟩ := exists_append_of_erase tailSame
    obtain ⟨colon₂, used₂, rfl, colonSame₂, same₂⟩ := exists_cons_of_erase tailSame
    obtain ⟨_, parametersDerive, parametersSame⟩ :=
      parameters used₁ _ same₁ (erase_cons (erase_append behind same₂) colonSame₂)
    obtain ⟨_, valueDerives, valueSame⟩ := value used₂ next same₂ behind
    have spelled : used₁ ≠ [] := by
      rintro rfl
      exact parametersSpelled (List.map_eq_nil_iff.1 same₁.symm)
    refine ⟨_, .betweenColons ?_ ((kind_of_erase_eq colonSame₁).trans colonKind₁) parametersDerive
      spelled ((kind_of_erase_eq colonSame₂).trans colonKind₂) valueDerives, ?_⟩
    · rwa [kind_of_erase_eq keywordSame]
    · simp only [Form.relabel, Expr.relabel, Rules.returnBody, Stmt.relabelAll_eq_map,
        Parameter.relabelAll_eq_map, List.map_cons, List.map_nil, Stmt.relabel]
        at parametersSame valueSame ⊢
      rw [parametersSame, valueSame]
  | named keywordKind nameKind _ _ parameters body =>
    simp only [List.map_append, List.map_cons]
    exact .named keywordKind nameKind (by simpa using parameters) body
  | unnamed keywordKind noColon _ _ parameters body =>
    rw [← kindAhead_map_erase, List.map_append] at keywordKind noColon
    simp only [List.map_append, List.map_cons]
    exact .unnamed keywordKind noColon (by simpa using parameters) body
  | functionBlock _ block => exact block.functionBlock
  | functionValue colonKind _ value =>
    intro used next same behind
    obtain ⟨colon, rest, rfl, colonSame, restSame⟩ := exists_cons_of_erase same
    obtain ⟨_, valueDerives, valueSame⟩ := value rest next restSame behind
    refine ⟨_, .functionValue ((kind_of_erase_eq colonSame).trans colonKind) valueDerives, ?_⟩
    simp only [Form.relabel, Rules.returnBody, List.map_cons, List.map_nil, Stmt.relabel]
      at valueSame ⊢
    rw [valueSame]
  | listedParameters openingKind _ parameters => exact parameters.listedParameters openingKind
  | unlistedParameters noList _ parameters =>
    intro used next same behind
    obtain ⟨_, parametersDerive, parametersSame⟩ := parameters used next same behind
    refine ⟨_, .unlistedParameters ?_ parametersDerive, parametersSame⟩
    rwa [kindAhead_of_erase (erase_append behind same)]
  | noParameters ends =>
    intro used next same behind
    obtain rfl := List.map_eq_nil_iff.1 same
    refine ⟨_, .noParameters ?_, rfl⟩
    rwa [kindAhead_of_erase behind]
  | requiredParameters nameKind noDefault _ others =>
    intro used next same behind
    obtain ⟨name, rest, rfl, nameSame, restSame⟩ := exists_cons_of_erase same
    obtain ⟨_, othersDerive, othersSame⟩ := others rest next restSame behind
    refine ⟨_, .requiredParameters ((kind_of_erase_eq nameSame).trans nameKind) ?_ othersDerive,
      ?_⟩
    · rwa [kindAhead_of_erase (erase_append behind restSame)]
    · simp only [Form.relabel, List.map_cons, Parameter.relabel] at othersSame ⊢
      rw [othersSame, lexeme_of_erase_eq nameSame]
  | optionalParameters nameKind equalsKind openingKind _ closingKind _ default others =>
    intro used next same behind
    obtain ⟨name, tail, rfl, nameSame, tailSame⟩ := exists_cons_of_erase same
    obtain ⟨equals, tail, rfl, equalsSame, tailSame⟩ := exists_cons_of_erase tailSame
    obtain ⟨opening, tail, rfl, openingSame, tailSame⟩ := exists_cons_of_erase tailSame
    obtain ⟨used₁, tail, rfl, same₁, tailSame⟩ := exists_append_of_erase tailSame
    obtain ⟨closing, used₂, rfl, closingSame, same₂⟩ := exists_cons_of_erase tailSame
    obtain ⟨_, defaultDerives, defaultSame⟩ :=
      default used₁ _ same₁ (erase_cons (erase_append behind same₂) closingSame)
    obtain ⟨_, othersDerive, othersSame⟩ := others used₂ next same₂ behind
    refine ⟨_, .optionalParameters ((kind_of_erase_eq nameSame).trans nameKind)
      ((kind_of_erase_eq equalsSame).trans equalsKind)
      ((kind_of_erase_eq openingSame).trans openingKind) defaultDerives
      ((kind_of_erase_eq closingSame).trans closingKind) othersDerive, ?_⟩
    simp only [Form.relabel, List.map_cons, Parameter.relabel] at defaultSame othersSame ⊢
    rw [defaultSame, othersSame, lexeme_of_erase_eq nameSame]
  -- Lists.
  | value _ value => exact value.value
  | field keyKind newlinesBefore colonKind newlinesBehind _ value =>
    simp only [List.map_append, List.map_cons]
    exact value.field keyKind (newlines_map_relabel newlinesBefore) colonKind
      (newlines_map_relabel newlinesBehind)
  | shorthand keyKind newlinesBehind ends =>
    refine spells_key keyKind (newlines_map_relabel newlinesBehind) fun ahead behind => ?_
    rwa [kindAhead_of_erase behind]
  | requiredParameter nameKind noDefault =>
    refine spells_requiredParameter nameKind fun ahead behind => ?_
    rwa [kindAhead_of_erase behind]
  | optionalParameter nameKind equalsKind _ default =>
    exact default.optionalParameter nameKind equalsKind
  | list newlinesBefore _ items =>
    rw [List.map_append]
    exact items.list (newlines_map_relabel newlinesBefore)
  | noItems closingKind => exact spells_noItems closingKind
  | lastItem _ newlinesBehind closingKind last =>
    simp only [List.map_append, List.map_cons]
    exact .lastItem (by simpa using last) (newlines_map_relabel newlinesBehind) closingKind
  | moreItems _ newlinesBefore commaKind newlinesBehind _ first others =>
    simp only [List.map_append, List.map_cons]
    exact .moreItems (by simpa using first) (newlines_map_relabel newlinesBefore) commaKind
      (newlines_map_relabel newlinesBehind) others
  -- Blocks and statements.
  | block openingKind separated _ closingKind statements =>
    simp only [List.map_append, List.map_cons]
    exact .block openingKind (separators_map_relabel separated) (by simpa using statements)
      closingKind
  | bodyBlock _ block => exact block.bodyBlock
  | bodyStatement colonKind _ statement =>
    intro used next same behind
    obtain ⟨colon, rest, rfl, colonSame, restSame⟩ := exists_cons_of_erase same
    obtain ⟨_, statementDerives, statementSame⟩ := statement rest next restSame behind
    exact ⟨_, .bodyStatement ((kind_of_erase_eq colonSame).trans colonKind) statementDerives,
      congrArg (fun statement => [statement]) statementSame⟩
  | noStatements ends =>
    refine spells_noStatements fun ahead behind => ?_
    rwa [kindAhead_of_erase behind]
  | moreStatements _ separated _ first others =>
    simp only [List.map_append]
    exact .moreStatements (by simpa using first) (separators_map_relabel separated) others
  | ended _ semicolonKind statement =>
    rw [List.map_append]
    exact .ended (by simpa using statement) semicolonKind
  | unended _ noSemicolon statement =>
    intro used next same behind
    obtain ⟨_, statementDerives, statementSame⟩ := statement used next same behind
    refine ⟨_, .unended statementDerives ?_, statementSame⟩
    rwa [kindAhead_of_erase behind]
  | branchStatement _ branch => exact branch.branchStatement
  | whileLoop keywordKind _ _ test body =>
    simp only [List.map_append, List.map_cons]
    exact .whileLoop keywordKind (by simpa using test) body
  | forLoop keywordKind _ semicolonKind₁ _ semicolonKind₂ _ _ start test update body =>
    simp only [List.map_append, List.map_cons]
    exact .forLoop keywordKind (by simpa using start) semicolonKind₁ (by simpa using test)
      semicolonKind₂ (by simpa using update) body
  | returnValue keywordKind _ value => exact value.returnValue keywordKind
  | returnNothing keywordKind ends =>
    refine spells_returnNothing keywordKind fun ahead behind => ?_
    rwa [kindAhead_of_erase behind]
  | debugList keywordKind openingKind _ values => exact values.debugList keywordKind openingKind
  | debugValue keywordKind noList _ value =>
    intro used next same behind
    obtain ⟨keyword, rest, rfl, keywordSame, restSame⟩ := exists_cons_of_erase same
    obtain ⟨_, valueDerives, valueSame⟩ := value rest next restSame behind
    refine ⟨_, .debugValue ((kind_of_erase_eq keywordSame).trans keywordKind) ?_ valueDerives, ?_⟩
    · rwa [kindAhead_of_erase restSame]
    · simp only [Form.relabel, Stmt.relabel, Expr.relabelAll_eq_map, List.map_cons, List.map_nil]
        at valueSame ⊢
      rw [valueSame]
  | use keywordKind pathKind => exact spells_use keywordKind pathKind
  | exported keywordKind functionKind _ function =>
    refine function.exported keywordKind ?_
    rwa [kindAhead_map_erase]
  | expressionStatement _ value => exact value.expressionStatement
  | ifElse keywordKind _ _ newlinesBefore otherwiseKind _ test consequent alternate =>
    simp only [List.map_append, List.map_cons]
    exact .ifElse keywordKind (by simpa using test) (by simpa using consequent)
      (newlines_map_relabel newlinesBefore) otherwiseKind alternate
  | ifOnly keywordKind _ _ noElse test consequent =>
    simp only [List.map_append, List.map_cons]
    refine .ifOnly keywordKind (by simpa using test) consequent fun ahead behind => ?_
    rwa [kindAhead_of_erase (dropWhile_of_erase behind)]
  | elseIf _ branch =>
    intro used next same behind
    obtain ⟨_, branchDerives, branchSame⟩ := branch used next same behind
    exact ⟨_, .elseIf branchDerives, congrArg (fun statement => [statement]) branchSame⟩
  | elseBlock _ block => exact block.elseBlock
  | elseColon colonKind _ statement =>
    intro used next same behind
    obtain ⟨colon, rest, rfl, colonSame, restSame⟩ := exists_cons_of_erase same
    obtain ⟨_, statementDerives, statementSame⟩ := statement rest next restSame behind
    exact ⟨_, .elseColon ((kind_of_erase_eq colonSame).trans colonKind) statementDerives,
      congrArg (fun statement => [statement]) statementSame⟩
  | elseStatement noBranch noBlock _ statement =>
    intro used next same behind
    obtain ⟨_, statementDerives, statementSame⟩ := statement used next same behind
    refine ⟨_, .elseStatement ?_ ?_ statementDerives,
      congrArg (fun statement => [statement]) statementSame⟩
    · rwa [kindAhead_of_erase same]
    · rwa [kindAhead_of_erase same]
  | program separated _ statements =>
    intro used next same behind
    obtain ⟨separators, rest, rfl, separatorsSame, restSame⟩ := exists_append_of_erase same
    obtain ⟨_, statementsDerive, statementsSame⟩ := statements rest next restSame behind
    obtain rfl := List.map_eq_nil_iff.1 behind
    exact ⟨_, .program (separators_of_erase separatorsSame separated) statementsDerive,
      statementsSame⟩

end Grammar
end TinyScript
