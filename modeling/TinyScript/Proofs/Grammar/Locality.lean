import TinyScript.Proofs.Grammar.Levels

/-!
# What lies behind a form

How a run of tokens is read depends on what lies behind it only by what could go on with it.  A form
therefore stays the same form before other tokens (`Derives.keep`): before any whatsoever if it ends
in a closing mark; before others that first differ beyond a token that separates forms; and at the
end of the source also before a token that goes on with no form, such as a colon or a brace.
-/

namespace TinyScript
namespace Grammar

/-! ## Tokens that may be replaced -/

/-- The kinds of token that go on with no form that could end before them. -/
def stops : Token.Kind → Bool
  | .newline => true
  | .mark mark =>
    match mark with
    | .colon | .openBrace | .closeBrace | .closeParen | .closeBracket | .comma => true
    | _ => false
  | _ => false

/-- The kinds of token that keep apart what lies before and behind them: none of them is a line end
or a part of a declaration. -/
def isFirm : Token.Kind → Bool
  | .newline | .mark .colon | .sign .assign | .identifier | .keyword .outWord => false
  | _ => true

/-- What tokens ahead could not go on with, other tokens ahead cannot go on with either. -/
structure EndsLike (next' next : List Token) : Prop where
  head : next'.head? = next.head? ∨ stops (kindAhead next') = true
  declared : declared? next = none → declared? next' = none

/-- Tokens may lie ahead in place of others: whatever could not go on with the others cannot go on
with them. -/
structure Replaces (next' next : List Token) : Prop where
  head : next'.head? = next.head? ∨ next = [] ∧ stops (kindAhead next') = true
  declared : ∀ before, declared? (before ++ next) = none → declared? (before ++ next') = none
  otherwise : kindAhead (next.dropWhile (·.kind == .newline)) ≠ .keyword .elseWord →
    kindAhead (next'.dropWhile (·.kind == .newline)) ≠ .keyword .elseWord

theorem kindAhead_eq_of_head?
    {next next' : List Token}
    (same : next'.head? = next.head?) :
    kindAhead next' = kindAhead next := by
  cases next <;> cases next' <;> simp_all

namespace EndsLike

variable {next' next : List Token} (endsLike : EndsLike next' next)

include endsLike

theorem kindAhead_ne
    {kind : Token.Kind}
    (ends : kindAhead next ≠ kind)
    (other : stops kind = false) :
    kindAhead next' ≠ kind := by
  rcases endsLike.head with same | stopped
  · rwa [kindAhead_eq_of_head? same]
  · rintro rfl
    rw [other] at stopped
    cases stopped

/-- What no token is read as that stops an expression, the next token is not read as. -/
theorem bind_head?
    {β : Type}
    {read? : Token → Option β}
    (none : ∀ token : Token, stops token.kind = true → read? token = none)
    (ends : next.head?.bind read? = .none) :
    next'.head?.bind read? = .none := by
  rcases endsLike.head with same | stopped
  · rwa [same]
  · cases next' with
    | nil => rfl
    | cons token rest => exact none token stopped

/-- Where an assignment ends, it ends before another stop as well. -/
theorem endsAssignment
    (ends : EndsAssignment next) :
    EndsAssignment next' where
  noAssign := endsLike.kindAhead_ne ends.noAssign rfl
  noCompound := by
    refine endsLike.bind_head? (fun token stopped => ?_) ends.noCompound
    unfold Rules.compound?
    split <;> simp_all [stops]
  noDeclaration := endsLike.declared ends.noDeclaration

/-- Where suffixes end, they end before another stop as well. -/
theorem endsAccesses
    (ends : EndsAccesses next) :
    EndsAccesses next' where
  noCall := endsLike.kindAhead_ne ends.noCall rfl
  noMember := endsLike.kindAhead_ne ends.noMember rfl
  noIndex := endsLike.kindAhead_ne ends.noIndex rfl

/-- Where a chain ends, it ends before another stop as well. -/
theorem endsChain
    {chain : Chain}
    (ends : next.head?.bind chain.operation? = none) :
    next'.head?.bind chain.operation? = none := by
  refine endsLike.bind_head? (fun token stopped => ?_) ends
  cases chain <;>
    simp only [Chain.operation?, Rules.logicalOperator?, Rules.equalityOperator?,
      Rules.comparisonOperator?, Rules.sumOperator?, Rules.productOperator?] <;>
    split <;> simp_all [stops]

/-- Where steps end, they end before another stop as well. -/
theorem endsSteps
    (ends : next.head?.bind Rules.trailing? = none) :
    next'.head?.bind Rules.trailing? = none := by
  refine endsLike.bind_head? (fun token stopped => ?_) ends
  unfold Rules.trailing?
  split <;> simp_all [stops]

end EndsLike

/-- Nothing that lies beyond a firm token matters. -/
theorem replaces_beyond
    {token : Token}
    (firm : isFirm token.kind = true)
    (rest' rest : List Token) :
    Replaces (token :: rest') (token :: rest) where
  head := .inl rfl
  declared before undeclared := by
    have noColon : token.kind ≠ .mark .colon := fun kind => by simp [kind, isFirm] at firm
    have noAssign : token.kind ≠ .sign .assign := fun kind => by simp [kind, isFirm] at firm
    have noFlavour : Rules.flavour? token = none := by
      unfold Rules.flavour?
      split <;> simp_all [isFirm]
    match before with
    | [] => exact declared?_of_kind noColon rest'
    | [colon] => cases rest' <;> simp [declared?, noFlavour]
    | [colon, word] => simp [declared?, noAssign]
    | colon :: word :: equals :: before => exact undeclared
  otherwise := by
    have noLine : (token.kind == .newline) = false := by
      rw [beq_eq_false_iff_ne]
      exact fun kind => by simp [kind, isFirm] at firm
    simp [noLine]

/-- Behind the end of the source may lie what goes on with nothing. -/
theorem replaces_nil
    {tail : List Token}
    (ends : stops (kindAhead tail) = true)
    (undeclared : declared? tail = none)
    (noElse : kindAhead (tail.dropWhile (·.kind == .newline)) ≠ .keyword .elseWord) :
    Replaces tail [] where
  head := .inr ⟨rfl, ends⟩
  declared before undeclaredBefore := by
    obtain ⟨token, tail, rfl⟩ : ∃ token rest, tail = token :: rest := by
      cases tail with
      | nil => cases ends
      | cons token rest => exact ⟨token, rest, rfl⟩
    rw [kindAhead_cons] at ends
    have noAssign : token.kind ≠ .sign .assign := fun kind => by simp [kind, stops] at ends
    have noFlavour : Rules.flavour? token = none := by
      unfold Rules.flavour?
      split <;> simp_all [stops]
    rw [List.append_nil] at undeclaredBefore
    match before with
    | [] => exact undeclared
    | [colon] => cases tail <;> simp [declared?, noFlavour]
    | [colon, word] => simp [declared?, noAssign]
    | colon :: word :: equals :: before => exact undeclaredBefore
  otherwise _ := noElse

namespace Replaces

variable {next' next : List Token} (replaces : Replaces next' next)

include replaces

/-- The same tokens may lie before both. -/
theorem prepend
    (before : List Token) :
    Replaces (before ++ next') (before ++ next) where
  head := by
    cases before with
    | nil => exact replaces.head
    | cons token before => exact .inl rfl
  declared more undeclared := by
    rw [← List.append_assoc] at undeclared ⊢
    exact replaces.declared _ undeclared
  otherwise noElse := by
    rw [List.dropWhile_append] at noElse ⊢
    split at noElse
    · rename_i lines
      rw [if_pos lines]
      exact replaces.otherwise noElse
    · rename_i others
      rw [if_neg others]
      rw [List.isEmpty_iff] at others
      rwa [kindAhead_append _ others] at noElse ⊢

theorem kindAhead_eq
    (spelled : next ≠ []) :
    kindAhead next' = kindAhead next :=
  kindAhead_eq_of_head? (replaces.head.resolve_right fun atEnd => spelled atEnd.1)

theorem endsLike :
    EndsLike next' next where
  head := replaces.head.imp_right And.right
  declared := replaces.declared []

end Replaces

/-! ## Forms before other tokens -/

/-- The kinds of token that end a statement at which the source would end. -/
def endsStatement : Token.Kind → Bool
  | .newline | .mark .closeBrace => true
  | _ => false

/-- Tokens may lie behind a form in place of others.  A form that ends in a closing mark does not
look behind it.  A statement at the end of the source is one before a token that ends it, and a run
of statements is not one any more. -/
def Form.Keeps (next' next : List Token) : Form → Prop
  | .block => True
  | .list closing _ | .items closing _ => closing ≠ .colon
  | .program => False
  | .statements => Replaces next' next ∧ next ≠ []
  | .statement | .bareStatement | .branch | .body | .alternative =>
    Replaces next' next ∧ (next ≠ [] ∨ endsStatement (kindAhead next') = true)
  | _ => Replaces next' next

/-- The form of a statement is kept before tokens that some other token is put before. -/
theorem Replaces.keeps_cons
    {next' next : List Token}
    (replaces : Replaces next' next)
    (token : Token) :
    Replaces (token :: next') (token :: next) ∧
      (token :: next ≠ [] ∨ endsStatement (kindAhead (token :: next')) = true) :=
  ⟨replaces.prepend [token], .inl (List.cons_ne_nil _ _)⟩

/-- A closing mark, and what lies beyond it, may lie ahead instead of the same mark and something
else. -/
theorem replaces_closing
    {closing : Token}
    {mark : Mark}
    (kind : closing.kind = .mark mark)
    (noColon : mark ≠ .colon)
    (rest' rest : List Token) :
    Replaces (closing :: rest') (closing :: rest) := by
  refine replaces_beyond ?_ rest' rest
  rw [kind]
  cases mark <;> first | rfl | exact absurd rfl noColon

/-- A form stays the same form when what lies behind it is replaced. -/
theorem Derives.keep
    {form : Form}
    {used next next' : List Token}
    {tree : form.Tree}
    (derives : Derives form used tree next)
    (keeps : form.Keeps next' next) :
    Derives form used tree next' := by
  induction derives generalizing next' with
  | @assign _ used₂ _ equals _ _ _ equalsKind _ target value =>
    exact .assign (target (Replaces.prepend keeps (equals :: used₂))) equalsKind (value keeps)
  | @compoundAssign _ used₂ _ sign _ _ _ _ signOperation _ target value =>
    exact .compoundAssign (target (Replaces.prepend keeps (sign :: used₂))) signOperation
      (value keeps)
  | @declare _ used₂ _ colon word equals _ _ _ _ _ colonKind wordFlavour equalsKind _ target
      value =>
    exact .declare (target (Replaces.prepend keeps (colon :: word :: equals :: used₂))) colonKind
      wordFlavour equalsKind (value keeps)
  | unassigned _ ends value =>
    exact .unassigned (value keeps) ((Replaces.endsLike keeps).endsAssignment ends)
  | @choice _ used₂ used₃ _ question colon _ _ _ _ questionKind _ colonKind _ test consequent
      alternate =>
    have behind := Replaces.prepend keeps (question :: (used₂ ++ colon :: used₃))
    simp only [List.cons_append, List.append_assoc] at behind
    have testKept := @test (question :: (used₂ ++ colon :: (used₃ ++ next'))) behind
    exact .choice testKept questionKind (consequent (Replaces.prepend keeps (colon :: used₃)))
      colonKind (alternate keeps)
  | unchosen _ ends value =>
    exact .unchosen (value keeps) ((Replaces.endsLike keeps).kindAhead_ne ends rfl)
  | operand _ value => exact .operand (value keeps)
  | @operation _ _ used₂ _ sign _ _ _ _ signOperation _ left right =>
    exact .operation (left (Replaces.prepend keeps (sign :: used₂))) signOperation (right keeps)
  | chain _ ends value => exact .chain (value keeps) ((Replaces.endsLike keeps).endsChain ends)
  | leading signOperation _ operand => exact .leading signOperation (operand keeps)
  | @trailing _ _ sign _ _ _ signOperation operand =>
    exact .trailing (operand (Replaces.prepend keeps [sign])) signOperation
  | unstepped _ ends value =>
    exact .unstepped (value keeps) ((Replaces.endsLike keeps).endsSteps ends)
  | suffixed _ ends value =>
    exact .suffixed (value keeps) ((Replaces.endsLike keeps).endsAccesses ends)
  | subject _ value => exact .subject (value keeps)
  | @call _ used₂ _ opening _ _ _ openingKind _ callee arguments =>
    exact .call (callee (Replaces.prepend keeps (opening :: used₂))) openingKind
      (arguments (show Mark.closeParen ≠ .colon by decide))
  | @member _ _ dot key _ _ dotKind keyKind subject =>
    exact .member (subject (Replaces.prepend keeps [dot, key])) dotKind keyKind
  | @index _ newlines₁ used₂ newlines₂ _ opening closing _ _ _ openingKind newlinesBefore _
      newlinesBehind closingKind subject key =>
    have closed := replaces_closing closingKind (by decide) next'
    have subjectKept := @subject (opening :: (newlines₁ ++ used₂ ++ newlines₂ ++ closing :: next'))
      ((closed _).prepend (opening :: (newlines₁ ++ used₂ ++ newlines₂)))
    exact .index subjectKept openingKind newlinesBefore (key ((closed _).prepend newlines₂))
      newlinesBehind closingKind
  | name kind => exact .name kind
  | number kind reads => exact .number kind reads
  | text kind => exact .text kind
  | truth kind => exact .truth kind
  | falsehood kind => exact .falsehood kind
  | undefined kind => exact .undefined kind
  | typeof keywordKind _ operand => exact .typeof keywordKind (operand keeps)
  | lambda _ value => exact .lambda (value keeps)
  | @grouped _ _ newlines₂ _ _ closing _ openingKind newlinesBefore _ newlinesBehind closingKind
      value =>
    exact .grouped openingKind newlinesBefore
      (value ((replaces_closing closingKind (by decide) next' _).prepend newlines₂)) newlinesBehind
      closingKind
  | array openingKind _ items =>
    exact .array openingKind (items (show Mark.closeBracket ≠ .colon by decide))
  | object openingKind _ fields =>
    exact .object openingKind (fields (show Mark.closeBrace ≠ .colon by decide))
  | calledOnTheSpot keywordKind colonKind₁ colonKind₂ _ value =>
    exact .calledOnTheSpot keywordKind colonKind₁ colonKind₂ (value keeps)
  | @betweenColons _ _ used₂ _ _ _ colon₂ _ _ keywordKind colonKind₁ _ parametersSpelled
      colonKind₂ _ parameters value =>
    exact .betweenColons keywordKind colonKind₁
      (parameters (Replaces.prepend keeps (colon₂ :: used₂))) parametersSpelled colonKind₂
      (value keeps)
  | @named _ _ used₂ _ _ _ _ _ keywordKind nameKind _ _ parameters body =>
    exact .named keywordKind nameKind (parameters (Replaces.prepend keeps used₂)) (body keeps)
  | @unnamed _ _ used₂ _ _ _ _ keywordKind noColon _ _ parameters body =>
    exact .unnamed keywordKind noColon (parameters (Replaces.prepend keeps used₂)) (body keeps)
  | functionBlock _ block => exact .functionBlock (block trivial)
  | functionValue colonKind _ value => exact .functionValue colonKind (value keeps)
  | listedParameters openingKind _ parameters =>
    exact .listedParameters openingKind (parameters (show Mark.closeParen ≠ .colon by decide))
  | @unlistedParameters used _ _ noList _ parameters =>
    exact .unlistedParameters ((Replaces.prepend keeps used).endsLike.kindAhead_ne noList rfl)
      (parameters keeps)
  | noParameters ends => exact .noParameters ((Replaces.endsLike keeps).kindAhead_ne ends rfl)
  | @requiredParameters used _ _ _ nameKind noDefault _ others =>
    exact .requiredParameters nameKind
      ((Replaces.prepend keeps used).endsLike.kindAhead_ne noDefault rfl) (others keeps)
  | @optionalParameters _ used₂ _ _ _ _ closing _ _ nameKind equalsKind openingKind _ closingKind _
      default others =>
    exact .optionalParameters nameKind equalsKind openingKind
      (default (Replaces.prepend keeps (closing :: used₂))) closingKind (others keeps)
  | value _ value => exact .value (value keeps)
  | field keyKind newlinesBefore colonKind newlinesBehind _ value =>
    exact .field keyKind newlinesBefore colonKind newlinesBehind (value keeps)
  | @shorthand _ next _ keyKind newlinesBehind ends =>
    have spelled : next ≠ [] := by
      rintro rfl
      simp at ends
    refine .shorthand keyKind newlinesBehind ?_
    rwa [Replaces.kindAhead_eq keeps spelled]
  | requiredParameter nameKind noDefault =>
    exact .requiredParameter nameKind ((Replaces.endsLike keeps).kindAhead_ne noDefault rfl)
  | optionalParameter nameKind equalsKind _ default =>
    exact .optionalParameter nameKind equalsKind (default keeps)
  | list newlinesBefore _ items => exact .list newlinesBefore (items keeps)
  | noItems closingKind => exact .noItems closingKind
  | @lastItem _ _ _ newlines _ _ _ _ newlinesBehind closingKind last =>
    exact .lastItem (last ((replaces_closing closingKind keeps next' _).prepend newlines))
      newlinesBehind closingKind
  | @moreItems _ _ _ newlines₁ newlines₂ used₂ _ comma _ _ _ newlinesBefore commaKind newlinesBehind
      _ first others =>
    have behind := replaces_closing commaKind (by decide) (newlines₂ ++ used₂ ++ next')
    exact .moreItems (first ((behind _).prepend newlines₁)) newlinesBefore commaKind newlinesBehind
      (others keeps)
  | block openingKind separated _ closingKind statements =>
    have behind := replaces_closing closingKind (by decide) next'
    exact .block openingKind separated (statements ⟨behind _, List.cons_ne_nil _ _⟩) closingKind
  | bodyBlock _ block => exact .bodyBlock (block trivial)
  | bodyStatement colonKind _ statement => exact .bodyStatement colonKind (statement keeps)
  | noStatements ends =>
    refine .noStatements ?_
    rwa [keeps.1.kindAhead_eq keeps.2]
  | @moreStatements _ separators used₂ _ _ _ _ separated _ first others =>
    have behind := keeps.1.prepend (separators ++ used₂)
    exact .moreStatements (first ⟨behind, .inl (List.append_ne_nil_of_right_ne_nil _ keeps.2)⟩)
      separated (others keeps)
  | ended _ semicolonKind statement =>
    exact .ended (statement (keeps.1.keeps_cons _)) semicolonKind
  | unended _ noSemicolon statement =>
    exact .unended (statement keeps) (keeps.1.endsLike.kindAhead_ne noSemicolon rfl)
  | branchStatement _ branch => exact .branchStatement (branch keeps)
  | @whileLoop _ used₂ _ _ _ _ keywordKind _ _ test body =>
    exact .whileLoop keywordKind (test (keeps.1.prepend used₂)) (body keeps)
  | @forLoop _ used₂ used₃ used₄ _ _ semicolon₁ semicolon₂ _ _ _ _ keywordKind _ semicolonKind₁ _
      semicolonKind₂ _ _ start test update body =>
    have startKept := @start (semicolon₁ :: (used₂ ++ semicolon₂ :: (used₃ ++ used₄ ++ next')))
      (replaces_closing semicolonKind₁ (by decide) _ _)
    have testKept := @test (semicolon₂ :: (used₃ ++ used₄ ++ next'))
      (replaces_closing semicolonKind₂ (by decide) _ _)
    exact .forLoop keywordKind startKept semicolonKind₁ testKept semicolonKind₂
      (update (keeps.1.prepend used₄)) (body trivial)
  | returnValue keywordKind _ value => exact .returnValue keywordKind (value keeps.1)
  | @returnNothing next _ keywordKind ends =>
    refine .returnNothing keywordKind ?_
    rcases keeps.2 with spelled | ended
    · rwa [keeps.1.kindAhead_eq spelled]
    · revert ended
      cases kindAhead next' with
      | newline => exact fun _ => .inl rfl
      | mark mark => cases mark <;> simp [endsStatement]
      | _ => simp [endsStatement]
  | debugList keywordKind openingKind _ values =>
    exact .debugList keywordKind openingKind (values (show Mark.closeBrace ≠ .colon by decide))
  | debugValue keywordKind noList _ value => exact .debugValue keywordKind noList (value keeps.1)
  | use keywordKind pathKind => exact .use keywordKind pathKind
  | exported keywordKind functionKind _ function =>
    exact .exported keywordKind functionKind (function keeps.1)
  | expressionStatement _ value => exact .expressionStatement (value keeps.1)
  | @ifElse _ used₂ newlines used₃ _ _ otherwise _ _ _ keywordKind _ _ newlinesBefore otherwiseKind
      _ test consequent alternate =>
    have behind := keeps.1.prepend (otherwise :: used₃)
    have testKept := @test (used₂ ++ newlines ++ otherwise :: (used₃ ++ next'))
      (behind.prepend (used₂ ++ newlines))
    have consequentKept := @consequent (newlines ++ otherwise :: (used₃ ++ next'))
      ⟨behind.prepend newlines, .inl (by simp)⟩
    exact .ifElse keywordKind testKept consequentKept newlinesBefore otherwiseKind
      (alternate keeps)
  | @ifOnly _ used₂ _ _ _ _ keywordKind _ _ noElse test consequent =>
    exact .ifOnly keywordKind (test (keeps.1.prepend used₂)) (consequent keeps)
      (keeps.1.otherwise noElse)
  | elseIf _ branch => exact .elseIf (branch keeps)
  | elseBlock _ block => exact .elseBlock (block trivial)
  | elseColon colonKind _ statement => exact .elseColon colonKind (statement keeps)
  | elseStatement noBranch noBlock _ statement =>
    exact .elseStatement noBranch noBlock (statement keeps)
  | program => exact keeps.elim

/-- A name, with the calls and accesses behind it, is the same before anything. -/
theorem Derives.accesses_before
    {form : Form}
    {used next : List Token}
    {tree : form.Tree}
    (derives : Derives form used tree next)
    (isAccesses : form = .accesses)
    (named : kindAhead used = .identifier)
    (next' : List Token) :
    Derives form used tree next' := by
  induction derives generalizing next' with
  | subject valueDerives =>
    -- Of the values without operations only a name begins with one.
    cases valueDerives with
    | name kind => exact .subject (.name kind)
    | lambda function =>
      have begins := function.begins
      rw [named] at begins
      cases begins
    | _ => simp_all
  | @call _ used₂ _ opening _ _ calleeDerives openingKind argumentsDerive callee =>
    rw [kindAhead_append _ (calleeDerives.spelled rfl)] at named
    exact .call (callee isAccesses named (opening :: (used₂ ++ next'))) openingKind
      (argumentsDerive.keep (show Mark.closeParen ≠ .colon by decide))
  | @member _ _ dot key _ subjectDerives dotKind keyKind subject =>
    rw [kindAhead_append _ (subjectDerives.spelled rfl)] at named
    exact .member (subject isAccesses named (dot :: key :: next')) dotKind keyKind
  | @index _ newlines₁ used₂ newlines₂ _ opening closing _ _ subjectDerives openingKind
      newlinesBefore keyDerives newlinesBehind closingKind subject =>
    rw [kindAhead_append _ (subjectDerives.spelled rfl)] at named
    have keyKept := keyDerives.keep
      ((replaces_closing closingKind (by decide) next' _).prepend newlines₂)
    exact .index (subject isAccesses named _) openingKind newlinesBefore keyKept newlinesBehind
      closingKind
  | _ => cases isAccesses

end Grammar
end TinyScript
