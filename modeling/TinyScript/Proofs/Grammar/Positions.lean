import TinyScript.Proofs.Grammar.Derivation
import TinyScript.Proofs.Syntax.Relabel

/-!
# Derivations at other places

What a run of tokens is does not depend on the places of the tokens.  Change the
positions of the tokens and the tree derived from them has its positions changed
in the same way.
-/

namespace TinyScript
namespace Grammar

/-- An item of a list with its positions changed. -/
def Item.relabel (change : Position → Position) : (item : Item) → item.Tree → item.Tree
  | .value => Expr.relabel change
  | .field => Field.relabel change
  | .parameter => Parameter.relabel change

/-- A tree with its positions changed. -/
def Form.relabel (change : Position → Position) : (form : Form) → form.Tree → form.Tree
  | .expression _ | .operations _ | .accesses | .function _ => Expr.relabel change
  | .parameters | .bareParameters => List.map (Parameter.relabel change)
  | .item entry => entry.relabel change
  | .items _ entry | .list _ entry => List.map (entry.relabel change)
  | .functionBody | .block | .body | .statements | .alternative | .program =>
    List.map (Stmt.relabel change)
  | .statement | .bareStatement | .branch => Stmt.relabel change

variable {change : Position → Position}

/-! ## What is ahead -/

/-- Tokens that are moved keep the kind of the first one. -/
@[simp] theorem kindAhead_map_relabel
    (next : List Token) :
    kindAhead (next.map (Token.relabel change)) = kindAhead next := by
  cases next with
  | nil => rfl
  | cons token next => rfl

theorem newlines_map_relabel
    {tokens : List Token}
    (newlines : Newlines tokens) :
    Newlines (tokens.map (Token.relabel change)) := by
  intro token mem
  obtain ⟨origin, originMem, rfl⟩ := List.mem_map.1 mem
  exact newlines origin originMem

theorem separators_map_relabel
    {tokens : List Token}
    (separators : Separators tokens) :
    Separators (tokens.map (Token.relabel change)) := by
  intro token mem
  obtain ⟨origin, originMem, rfl⟩ := List.mem_map.1 mem
  exact separators origin originMem

theorem dropWhile_map_relabel
    (next : List Token) :
    (next.map (Token.relabel change)).dropWhile (·.kind == .newline) =
      (next.dropWhile (·.kind == .newline)).map (Token.relabel change) := by
  rw [List.dropWhile_map]
  rfl

/-- Whatever reads the kind and the text of a token reads the same ahead at another place. -/
theorem bind_head?_map_relabel
    {β : Type}
    {read? : Token → Option β}
    (same : ∀ token, read? (token.relabel change) = read? token)
    (next : List Token) :
    (next.map (Token.relabel change)).head?.bind read? = next.head?.bind read? := by
  cases next with
  | nil => rfl
  | cons token next => exact same token

/-- Tokens that are moved declare the same name. -/
@[simp] theorem declared?_map_relabel
    (next : List Token) :
    declared? (next.map (Token.relabel change)) = declared? next := by
  match next with
  | [] | [_] | [_, _] => rfl
  | colon :: word :: equals :: rest => rfl

/-- Whether an assignment ends does not depend on where tokens are moved. -/
theorem EndsAssignment.relabel
    {next : List Token}
    (ends : EndsAssignment next) :
    EndsAssignment (next.map (Token.relabel change)) where
  noAssign := by
    rw [kindAhead_map_relabel]
    exact ends.noAssign
  noCompound := by
    rw [bind_head?_map_relabel fun token => rfl]
    exact ends.noCompound
  noDeclaration := by
    rw [declared?_map_relabel]
    exact ends.noDeclaration

/-- Whether suffixes end does not depend on where tokens are moved. -/
theorem EndsAccesses.relabel
    {next : List Token}
    (ends : EndsAccesses next) :
    EndsAccesses (next.map (Token.relabel change)) where
  noCall := by
    rw [kindAhead_map_relabel]
    exact ends.noCall
  noMember := by
    rw [kindAhead_map_relabel]
    exact ends.noMember
  noIndex := by
    rw [kindAhead_map_relabel]
    exact ends.noIndex

/-! ## Operators -/

/-- A token that is moved is the same operator. -/
@[simp] theorem Chain.operation?_relabel
    (chain : Chain)
    (token : Token) :
    chain.operation? (token.relabel change) = chain.operation? token := by
  cases chain <;> rfl

/-- An operator builds an operation whose position is the one it is given. -/
theorem Chain.relabel_operation
    {chain : Chain}
    {sign : Token}
    {operation : Position → Expr → Expr → Expr}
    (signOperation : chain.operation? sign = some operation)
    (position : Position)
    (left right : Expr) :
    (operation position left right).relabel change =
      operation (change position) (left.relabel change) (right.relabel change) := by
  obtain ⟨op, rfl⟩ | ⟨op, rfl⟩ := Chain.exists_of_operation? signOperation <;> rfl

/-- An operator before its operand takes its own position along. -/
theorem exists_leading_relabel
    {sign : Token}
    {operation : Expr → Expr}
    (signOperation : Rules.leading? sign = some operation) :
    ∃ moved, Rules.leading? (sign.relabel change) = some moved ∧
      ∀ operand : Expr, moved (operand.relabel change) = (operation operand).relabel change := by
  unfold Rules.leading? at signOperation ⊢
  simp only [Token.kind_relabel, Token.lexeme_relabel, Token.position_relabel]
  repeat' split at signOperation
  all_goals cases signOperation
  all_goals simp_all [Expr.relabel]

/-! ## Derivations -/

/-- Tokens at other places derive the same tree at other places. -/
theorem Derives.relabel
    {form : Form}
    {used next : List Token}
    {tree : form.Tree}
    (derives : Derives form used tree next) :
    Derives form (used.map (Token.relabel change)) (form.relabel change tree)
      (next.map (Token.relabel change)) := by
  induction derives with
  | assign _ equalsKind _ targetMoved valueMoved =>
    simp only [List.map_append, List.map_cons, Form.relabel, Expr.relabel] at *
    rw [← Expr.position_relabel change]
    exact .assign targetMoved equalsKind valueMoved
  | compoundAssign _ signOperation _ targetMoved valueMoved =>
    simp only [List.map_append, List.map_cons, Form.relabel, Expr.relabel] at *
    rw [← Expr.position_relabel change]
    exact .compoundAssign targetMoved signOperation valueMoved
  | declare _ colonKind wordFlavour equalsKind _ targetMoved valueMoved =>
    simp only [List.map_append, List.map_cons, Form.relabel, Expr.relabel] at *
    exact .declare targetMoved colonKind wordFlavour equalsKind valueMoved
  | unassigned _ ends valueMoved => exact .unassigned valueMoved ends.relabel
  | choice _ questionKind _ colonKind _ testMoved consequentMoved alternateMoved =>
    simp only [List.map_append, List.map_cons, Form.relabel, Expr.relabel] at *
    rw [← Expr.position_relabel change]
    exact .choice testMoved questionKind consequentMoved colonKind alternateMoved
  | unchosen _ ends valueMoved =>
    refine .unchosen valueMoved ?_
    rw [kindAhead_map_relabel]
    exact ends
  | operand _ valueMoved => exact .operand valueMoved
  | operation _ signOperation _ leftMoved rightMoved =>
    simp only [List.map_append, List.map_cons, Form.relabel] at *
    rw [Chain.relabel_operation signOperation, ← Expr.position_relabel change]
    refine .operation leftMoved ?_ rightMoved
    rw [Chain.operation?_relabel]
    exact signOperation
  | chain _ ends valueMoved =>
    refine .chain valueMoved ?_
    rw [bind_head?_map_relabel (Chain.operation?_relabel _)]
    exact ends
  | leading signOperation _ operandMoved =>
    obtain ⟨moved, movedOperation, moves⟩ := exists_leading_relabel signOperation
    simp only [List.map_cons, Form.relabel] at *
    rw [← moves]
    exact .leading movedOperation operandMoved
  | trailing _ signOperation operandMoved =>
    simp only [List.map_append, List.map_cons, List.map_nil, Form.relabel, Expr.relabel] at *
    rw [← Expr.position_relabel change]
    exact .trailing operandMoved signOperation
  | unstepped _ ends valueMoved =>
    refine .unstepped valueMoved ?_
    rw [bind_head?_map_relabel fun token => rfl]
    exact ends
  | suffixed _ ends valueMoved => exact .suffixed valueMoved ends.relabel
  | subject _ valueMoved => exact .subject valueMoved
  | call _ openingKind _ calleeMoved argumentsMoved =>
    simp only [List.map_append, List.map_cons, Form.relabel, Expr.relabel,
      Expr.relabelAll_eq_map] at *
    rw [← Expr.position_relabel change]
    exact .call calleeMoved openingKind argumentsMoved
  | member _ dotKind keyKind subjectMoved =>
    simp only [List.map_append, List.map_cons, List.map_nil, Form.relabel, Expr.relabel] at *
    rw [← Expr.position_relabel change]
    exact .member subjectMoved dotKind keyKind
  | index _ openingKind newlinesBefore _ newlinesBehind closingKind subjectMoved keyMoved =>
    simp only [List.map_append, List.map_cons, List.map_nil, Form.relabel, Expr.relabel] at *
    rw [← Expr.position_relabel change]
    exact .index subjectMoved openingKind (newlines_map_relabel newlinesBefore) keyMoved
      (newlines_map_relabel newlinesBehind) closingKind
  | name kind => exact .name kind
  | number kind reads => exact .number kind reads
  | text kind => exact .text kind
  | truth kind => exact .truth kind
  | falsehood kind => exact .falsehood kind
  | undefined kind => exact .undefined kind
  | typeof keywordKind _ operandMoved => exact .typeof keywordKind operandMoved
  | lambda _ valueMoved => exact .lambda valueMoved
  | grouped openingKind newlinesBefore _ newlinesBehind closingKind valueMoved =>
    simp only [List.map_append, List.map_cons, List.map_nil] at *
    exact .grouped openingKind (newlines_map_relabel newlinesBefore) valueMoved
      (newlines_map_relabel newlinesBehind) closingKind
  | array openingKind _ itemsMoved =>
    simp only [List.map_cons, Form.relabel, Expr.relabel, Expr.relabelAll_eq_map] at *
    exact .array openingKind itemsMoved
  | object openingKind _ fieldsMoved =>
    simp only [List.map_cons, Form.relabel, Expr.relabel, Field.relabelAll_eq_map] at *
    exact .object openingKind fieldsMoved
  | calledOnTheSpot keywordKind colonKind₁ colonKind₂ _ valueMoved =>
    simp only [List.map_cons, Form.relabel, Expr.relabel, Rules.returnBody, List.map_nil,
      Expr.relabelAll_eq_map, Stmt.relabelAll_eq_map, Parameter.relabelAll_eq_map,
      Stmt.relabel] at *
    rw [← Expr.position_relabel change]
    exact .calledOnTheSpot keywordKind colonKind₁ colonKind₂ valueMoved
  | betweenColons keywordKind colonKind₁ _ parametersSpelled colonKind₂ _ parametersMoved
      valueMoved =>
    simp only [List.map_append, List.map_cons, Form.relabel, Expr.relabel, Rules.returnBody,
      List.map_nil, Stmt.relabelAll_eq_map, Parameter.relabelAll_eq_map, Stmt.relabel] at *
    rw [← Expr.position_relabel change]
    exact .betweenColons keywordKind colonKind₁ parametersMoved
      (by rwa [ne_eq, List.map_eq_nil_iff]) colonKind₂ valueMoved
  | named keywordKind nameKind _ _ parametersMoved bodyMoved =>
    simp only [List.map_append, List.map_cons, Form.relabel, Expr.relabel,
      Stmt.relabelAll_eq_map, Parameter.relabelAll_eq_map] at *
    exact .named keywordKind nameKind parametersMoved bodyMoved
  | unnamed keywordKind noColon _ _ parametersMoved bodyMoved =>
    simp only [List.map_append, List.map_cons, Form.relabel, Expr.relabel,
      Stmt.relabelAll_eq_map, Parameter.relabelAll_eq_map] at *
    refine .unnamed ?_ ?_ parametersMoved bodyMoved
    · rw [← List.map_append, kindAhead_map_relabel]
      exact keywordKind
    · rw [← List.map_append, kindAhead_map_relabel]
      exact noColon
  | functionBlock _ blockMoved => exact .functionBlock blockMoved
  | functionValue colonKind _ valueMoved =>
    simp only [List.map_cons, List.map_nil, Form.relabel, Rules.returnBody, Stmt.relabel] at *
    rw [← Expr.position_relabel change]
    exact .functionValue colonKind valueMoved
  | listedParameters openingKind _ parametersMoved =>
    exact .listedParameters openingKind parametersMoved
  | unlistedParameters noList _ parametersMoved =>
    refine .unlistedParameters ?_ parametersMoved
    rw [← List.map_append, kindAhead_map_relabel]
    exact noList
  | noParameters ends =>
    refine .noParameters ?_
    rw [kindAhead_map_relabel]
    exact ends
  | requiredParameters nameKind noDefault _ othersMoved =>
    refine .requiredParameters nameKind ?_ othersMoved
    rw [← List.map_append, kindAhead_map_relabel]
    exact noDefault
  | optionalParameters nameKind equalsKind openingKind _ closingKind _ defaultMoved
      othersMoved =>
    simp only [List.map_append, List.map_cons, Form.relabel, Parameter.relabel] at *
    exact .optionalParameters nameKind equalsKind openingKind defaultMoved closingKind othersMoved
  | value _ valueMoved => exact .value valueMoved
  | field keyKind newlinesBefore colonKind newlinesBehind _ valueMoved =>
    simp only [List.map_append, List.map_cons, Form.relabel, Item.relabel, Field.relabel] at *
    exact .field keyKind (newlines_map_relabel newlinesBefore) colonKind
      (newlines_map_relabel newlinesBehind) valueMoved
  | shorthand keyKind newlinesBehind ends =>
    refine .shorthand keyKind (newlines_map_relabel newlinesBehind) ?_
    rw [kindAhead_map_relabel]
    exact ends
  | requiredParameter nameKind noDefault =>
    refine .requiredParameter nameKind ?_
    rw [kindAhead_map_relabel]
    exact noDefault
  | optionalParameter nameKind equalsKind _ defaultMoved =>
    exact .optionalParameter nameKind equalsKind defaultMoved
  | list newlinesBefore _ itemsMoved =>
    rw [List.map_append]
    exact .list (newlines_map_relabel newlinesBefore) itemsMoved
  | noItems closingKind => exact .noItems closingKind
  | lastItem _ newlinesBehind closingKind lastMoved =>
    simp only [List.map_append, List.map_cons, List.map_nil] at *
    exact .lastItem lastMoved (newlines_map_relabel newlinesBehind) closingKind
  | moreItems _ newlinesBefore commaKind newlinesBehind _ firstMoved othersMoved =>
    simp only [List.map_append, List.map_cons] at *
    exact .moreItems firstMoved (newlines_map_relabel newlinesBefore) commaKind
      (newlines_map_relabel newlinesBehind) othersMoved
  | block openingKind separated _ closingKind statementsMoved =>
    simp only [List.map_append, List.map_cons, List.map_nil] at *
    exact .block openingKind (separators_map_relabel separated) statementsMoved closingKind
  | bodyBlock _ blockMoved => exact .bodyBlock blockMoved
  | bodyStatement colonKind _ statementMoved => exact .bodyStatement colonKind statementMoved
  | noStatements ends =>
    refine .noStatements ?_
    rw [kindAhead_map_relabel]
    exact ends
  | moreStatements _ separated _ firstMoved othersMoved =>
    simp only [List.map_append] at *
    exact .moreStatements firstMoved (separators_map_relabel separated) othersMoved
  | ended _ semicolonKind statementMoved =>
    simp only [List.map_append, List.map_cons, List.map_nil] at *
    exact .ended statementMoved semicolonKind
  | unended _ noSemicolon statementMoved =>
    refine .unended statementMoved ?_
    rw [kindAhead_map_relabel]
    exact noSemicolon
  | branchStatement _ branchMoved => exact .branchStatement branchMoved
  | whileLoop keywordKind _ _ testMoved bodyMoved =>
    simp only [List.map_append, List.map_cons, Form.relabel, Stmt.relabel,
      Stmt.relabelAll_eq_map] at *
    exact .whileLoop keywordKind testMoved bodyMoved
  | forLoop keywordKind _ semicolonKind₁ _ semicolonKind₂ _ _ startMoved testMoved updateMoved
      bodyMoved =>
    simp only [List.map_append, List.map_cons, Form.relabel, Stmt.relabel,
      Stmt.relabelAll_eq_map] at *
    exact .forLoop keywordKind startMoved semicolonKind₁ testMoved semicolonKind₂ updateMoved
      bodyMoved
  | returnValue keywordKind _ valueMoved => exact .returnValue keywordKind valueMoved
  | returnNothing keywordKind ends =>
    refine .returnNothing keywordKind ?_
    rw [kindAhead_map_relabel]
    exact ends
  | debugList keywordKind openingKind _ valuesMoved =>
    simp only [List.map_cons, Form.relabel, Stmt.relabel, Expr.relabelAll_eq_map] at *
    exact .debugList keywordKind openingKind valuesMoved
  | debugValue keywordKind noList _ valueMoved =>
    simp only [List.map_cons, Form.relabel, Stmt.relabel, Expr.relabelAll_eq_map,
      List.map_nil] at *
    refine .debugValue keywordKind ?_ valueMoved
    rw [kindAhead_map_relabel]
    exact noList
  | use keywordKind pathKind => exact .use keywordKind pathKind
  | exported keywordKind functionKind _ functionMoved =>
    refine .exported keywordKind ?_ functionMoved
    rw [kindAhead_map_relabel]
    exact functionKind
  | expressionStatement _ valueMoved =>
    simp only [Form.relabel, Stmt.relabel] at *
    rw [← Expr.position_relabel change]
    exact .expressionStatement valueMoved
  | ifElse keywordKind _ _ newlinesBefore otherwiseKind _ testMoved consequentMoved
      alternateMoved =>
    simp only [List.map_append, List.map_cons, Form.relabel, Stmt.relabel,
      Stmt.relabelAll_eq_map] at *
    exact .ifElse keywordKind testMoved consequentMoved (newlines_map_relabel newlinesBefore)
      otherwiseKind alternateMoved
  | ifOnly keywordKind _ _ noElse testMoved consequentMoved =>
    simp only [List.map_append, List.map_cons, Form.relabel, Stmt.relabel,
      Stmt.relabelAll_eq_map, List.map_nil] at *
    refine .ifOnly keywordKind testMoved consequentMoved ?_
    rw [dropWhile_map_relabel, kindAhead_map_relabel]
    exact noElse
  | elseIf _ branchMoved => exact .elseIf branchMoved
  | elseBlock _ blockMoved => exact .elseBlock blockMoved
  | elseColon colonKind _ statementMoved => exact .elseColon colonKind statementMoved
  | elseStatement noBranch noBlock _ statementMoved =>
    refine .elseStatement ?_ ?_ statementMoved
    · rw [kindAhead_map_relabel]
      exact noBranch
    · rw [kindAhead_map_relabel]
      exact noBlock
  | program separated _ statementsMoved =>
    rw [List.map_append]
    exact .program (separators_map_relabel separated) statementsMoved

end Grammar
end TinyScript
