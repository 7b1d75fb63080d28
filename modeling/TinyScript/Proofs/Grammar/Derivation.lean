import TinyScript.Grammar.Program

/-!
# The grammar as a relation

`Derives form used tree next` says that the tokens `used`, with the tokens
`next` behind them, are the form of the grammar whose tree is `tree`.  Each
constructor is a production, and the tokens it uses are spelled out in order, so
that a derivation accounts for every token once.

A production looks at `next` only where the grammar would otherwise leave open
how far a form goes: an operator, an access, `else` or a declaration that could
go on with a form does go on with it.
-/

namespace TinyScript
namespace Grammar

/-! ## Forms -/

/-- The levels whose operators group from the left, from loosest to tightest. -/
inductive Chain
  | logical
  | equality
  | comparison
  | sum
  | product
  deriving DecidableEq, Repr

/-- The levels of expressions, from loosest to tightest. -/
inductive Level
  | assignment
  | ternary
  | chain (chain : Chain)
  | unary
  | suffixed
  | primary
  deriving DecidableEq, Repr

namespace Chain

/-- The operation that a token stands for between two operands. -/
def operation? : Chain → Token → Option (Position → Expr → Expr → Expr)
  | .logical => Rules.logicalOperator?
  | .equality => Rules.equalityOperator?
  | .comparison => Rules.comparisonOperator?
  | .sum => Rules.sumOperator?
  | .product => Rules.productOperator?

/-- The level of the operands. -/
def operand : Chain → Level
  | .logical => .chain .equality
  | .equality => .chain .comparison
  | .comparison => .chain .sum
  | .sum => .chain .product
  | .product => .unary

end Chain

/-- What stands between the commas of a list. -/
inductive Item
  | value
  | field
  | parameter
  deriving DecidableEq, Repr

/-- The tree of an item. -/
@[reducible] def Item.Tree : Item → Type
  | .value => Expr
  | .field => Field
  | .parameter => Parameter

/-- What a run of tokens can be. -/
inductive Form
  | expression (level : Level)
  /-- Operands with operators between them, to which more may be added behind. -/
  | operations (chain : Chain)
  /-- A value with calls and member accesses, to which more may be added behind. -/
  | accesses
  | function (exported : Bool)
  /-- The body of a function: a block, or a value behind a colon. -/
  | functionBody
  | parameters
  /-- Parameters without parentheses. -/
  | bareParameters
  | item (item : Item)
  /-- Items up to a closing mark, that mark included. -/
  | items (closing : Mark) (item : Item)
  /-- Items behind an opening mark, which may begin on a later line. -/
  | list (closing : Mark) (item : Item)
  | block
  /-- The body of a branch or loop: a block, or one statement behind a colon. -/
  | body
  | statements
  | statement
  /-- A statement without the semicolon behind it. -/
  | bareStatement
  | branch
  /-- What follows `else`. -/
  | alternative
  | program
  deriving DecidableEq, Repr

/-- The type of the trees of a form. -/
@[reducible] def Form.Tree : Form → Type
  | .expression _ | .operations _ | .accesses | .function _ => Expr
  | .parameters | .bareParameters => List Parameter
  | .item entry => entry.Tree
  | .items _ entry | .list _ entry => List entry.Tree
  | .functionBody | .block | .body | .statements | .alternative | .program => List Stmt
  | .statement | .bareStatement | .branch => Stmt

/-! ## What is ahead -/

/-- Tokens that are all newlines. -/
def Newlines (tokens : List Token) : Prop :=
  ∀ token ∈ tokens, token.kind = .newline

/-- Tokens that are all newlines or semicolons. -/
def Separators (tokens : List Token) : Prop :=
  ∀ token ∈ tokens, token.kind = .newline ∨ token.kind = .mark .semicolon

theorem Newlines.nil :
    Newlines [] := by
  intro token isIn
  exact absurd isIn List.not_mem_nil

theorem Separators.nil :
    Separators [] := by
  intro token isIn
  exact absurd isIn List.not_mem_nil

/-- The kind of the next token; behind the last one the source ends. -/
def kindAhead : (next : List Token) → Token.Kind
  | [] => .eof
  | token :: _ => token.kind

/-- The flavour of the declaration that a value goes on with, if it does. -/
def declared? : (next : List Token) → Option Flavour
  | colon :: word :: equals :: _ =>
    if colon.kind = .mark .colon ∧ equals.kind = .sign .assign then Rules.flavour? word else none
  | _ => none

/-- Nothing ahead makes the value before it the target of an assignment or declaration. -/
structure EndsAssignment (next : List Token) : Prop where
  noAssign : kindAhead next ≠ .sign .assign
  noCompound : next.head?.bind Rules.compound? = none
  noDeclaration : declared? next = none

/-- Nothing ahead calls or accesses the value before it. -/
structure EndsAccesses (next : List Token) : Prop where
  noCall : kindAhead next ≠ .mark .openParen
  noMember : kindAhead next ≠ .mark .dot
  noIndex : kindAhead next ≠ .mark .openBracket

/-! ## Productions -/

/-- The tokens `used`, followed by the tokens `next`, are a form with the given tree. -/
inductive Derives :
    (form : Form) → (used : List Token) → (tree : form.Tree) → (next : List Token) → Prop
  -- Expressions, from loosest to tightest.
  | assign
      {used₁ used₂ next : List Token} {equals : Token} {target value : Expr}
      (targetDerives : Derives (.expression .ternary) used₁ target (equals :: (used₂ ++ next)))
      (equalsKind : equals.kind = .sign .assign)
      (valueDerives : Derives (.expression .assignment) used₂ value next) :
      Derives (.expression .assignment) (used₁ ++ equals :: used₂)
        (.assign target.position target value) next
  /-- The target of a compound assignment is the left operand of the operation too. -/
  | compoundAssign
      {used₁ used₂ next : List Token} {sign : Token} {op : Arithmetic} {target value : Expr}
      (targetDerives : Derives (.expression .ternary) used₁ target (sign :: (used₂ ++ next)))
      (signOperation : Rules.compound? sign = some op)
      (valueDerives : Derives (.expression .assignment) used₂ value next) :
      Derives (.expression .assignment) (used₁ ++ sign :: used₂)
        (.assign target.position target
          (.binary target.position (.arithmetic op) target value)) next
  | declare
      {used₁ used₂ next : List Token} {colon word equals : Token} {flavour : Flavour}
      {position : Position} {name : String} {value : Expr}
      (targetDerives : Derives (.expression .ternary) used₁ (.name position name)
        (colon :: word :: equals :: (used₂ ++ next)))
      (colonKind : colon.kind = .mark .colon)
      (wordFlavour : Rules.flavour? word = some flavour)
      (equalsKind : equals.kind = .sign .assign)
      (valueDerives : Derives (.expression .assignment) used₂ value next) :
      Derives (.expression .assignment) (used₁ ++ colon :: word :: equals :: used₂)
        (.declare position flavour name value) next
  | unassigned
      {used next : List Token} {value : Expr}
      (valueDerives : Derives (.expression .ternary) used value next)
      (ends : EndsAssignment next) :
      Derives (.expression .assignment) used value next
  | choice
      {used₁ used₂ used₃ next : List Token} {question colon : Token}
      {test consequent alternate : Expr}
      (testDerives : Derives (.expression (.chain .logical)) used₁ test
        (question :: (used₂ ++ colon :: (used₃ ++ next))))
      (questionKind : question.kind = .mark .question)
      (consequentDerives : Derives (.expression (.chain .logical)) used₂ consequent
        (colon :: (used₃ ++ next)))
      (colonKind : colon.kind = .mark .colon)
      (alternateDerives : Derives (.expression .ternary) used₃ alternate next) :
      Derives (.expression .ternary) (used₁ ++ question :: (used₂ ++ colon :: used₃))
        (.ternary test.position test consequent alternate) next
  | unchosen
      {used next : List Token} {value : Expr}
      (valueDerives : Derives (.expression (.chain .logical)) used value next)
      (ends : kindAhead next ≠ .mark .question) :
      Derives (.expression .ternary) used value next
  | operand
      {chain : Chain} {used next : List Token} {value : Expr}
      (valueDerives : Derives (.expression chain.operand) used value next) :
      Derives (.operations chain) used value next
  /-- Operators of one level group from the left. -/
  | operation
      {chain : Chain} {used₁ used₂ next : List Token} {sign : Token}
      {operation : Position → Expr → Expr → Expr} {left right : Expr}
      (leftDerives : Derives (.operations chain) used₁ left (sign :: (used₂ ++ next)))
      (signOperation : chain.operation? sign = some operation)
      (rightDerives : Derives (.expression chain.operand) used₂ right next) :
      Derives (.operations chain) (used₁ ++ sign :: used₂)
        (operation left.position left right) next
  | chain
      {chain : Chain} {used next : List Token} {value : Expr}
      (valueDerives : Derives (.operations chain) used value next)
      (ends : next.head?.bind chain.operation? = none) :
      Derives (.expression (.chain chain)) used value next
  | leading
      {used next : List Token} {sign : Token} {operation : Expr → Expr} {operand : Expr}
      (signOperation : Rules.leading? sign = some operation)
      (operandDerives : Derives (.expression .unary) used operand next) :
      Derives (.expression .unary) (sign :: used) (operation operand) next
  | trailing
      {used next : List Token} {sign : Token} {op : StepOp} {operand : Expr}
      (operandDerives : Derives (.expression .suffixed) used operand (sign :: next))
      (signOperation : Rules.trailing? sign = some op) :
      Derives (.expression .unary) (used ++ [sign])
        (.step operand.position .behind op operand) next
  | unstepped
      {used next : List Token} {value : Expr}
      (valueDerives : Derives (.expression .suffixed) used value next)
      (ends : next.head?.bind Rules.trailing? = none) :
      Derives (.expression .unary) used value next
  | suffixed
      {used next : List Token} {value : Expr}
      (valueDerives : Derives .accesses used value next)
      (ends : EndsAccesses next) :
      Derives (.expression .suffixed) used value next
  | subject
      {used next : List Token} {value : Expr}
      (valueDerives : Derives (.expression .primary) used value next) :
      Derives .accesses used value next
  | call
      {used₁ used₂ next : List Token} {opening : Token} {callee : Expr} {arguments : List Expr}
      (calleeDerives : Derives .accesses used₁ callee (opening :: (used₂ ++ next)))
      (openingKind : opening.kind = .mark .openParen)
      (argumentsDerive : Derives (.list .closeParen .value) used₂ arguments next) :
      Derives .accesses (used₁ ++ opening :: used₂)
        (.call callee.position callee arguments) next
  /-- Behind a point a keyword is a name too. -/
  | member
      {used next : List Token} {dot key : Token} {subject : Expr}
      (subjectDerives : Derives .accesses used subject (dot :: key :: next))
      (dotKind : dot.kind = .mark .dot)
      (keyKind : key.kind = .identifier ∨ ∃ word, key.kind = .keyword word) :
      Derives .accesses (used ++ [dot, key])
        (.member subject.position subject key.lexeme) next
  | index
      {used₁ newlines₁ used₂ newlines₂ next : List Token} {opening closing : Token}
      {subject key : Expr}
      (subjectDerives : Derives .accesses used₁ subject
        (opening :: (newlines₁ ++ used₂ ++ newlines₂ ++ closing :: next)))
      (openingKind : opening.kind = .mark .openBracket)
      (newlinesBefore : Newlines newlines₁)
      (keyDerives : Derives (.expression .assignment) used₂ key (newlines₂ ++ closing :: next))
      (newlinesBehind : Newlines newlines₂)
      (closingKind : closing.kind = .mark .closeBracket) :
      Derives .accesses (used₁ ++ opening :: (newlines₁ ++ used₂ ++ newlines₂ ++ [closing]))
        (.index subject.position subject key) next
  -- Values that are no operation.
  | name
      {next : List Token} {token : Token}
      (kind : token.kind = .identifier) :
      Derives (.expression .primary) [token] (.name token.position token.lexeme) next
  | number
      {next : List Token} {token : Token} {value : Float}
      (kind : token.kind = .int ∨ token.kind = .float)
      (reads : Number.read? token.lexeme.toList = some value) :
      Derives (.expression .primary) [token] (.number token.position value) next
  | text
      {next : List Token} {token : Token}
      (kind : token.kind = .string) :
      Derives (.expression .primary) [token] (.text token.position token.lexeme) next
  | truth
      {next : List Token} {token : Token}
      (kind : token.kind = .keyword .trueWord) :
      Derives (.expression .primary) [token] (.bool token.position true) next
  | falsehood
      {next : List Token} {token : Token}
      (kind : token.kind = .keyword .falseWord) :
      Derives (.expression .primary) [token] (.bool token.position false) next
  | undefined
      {next : List Token} {token : Token}
      (kind : token.kind = .keyword .undefWord) :
      Derives (.expression .primary) [token] (.undefined token.position) next
  | typeof
      {used next : List Token} {keyword : Token} {operand : Expr}
      (keywordKind : keyword.kind = .keyword .typeofWord)
      (operandDerives : Derives (.expression .unary) used operand next) :
      Derives (.expression .primary) (keyword :: used) (.typeof keyword.position operand) next
  | lambda
      {used next : List Token} {value : Expr}
      (valueDerives : Derives (.function false) used value next) :
      Derives (.expression .primary) used value next
  | grouped
      {newlines₁ used newlines₂ next : List Token} {opening closing : Token} {value : Expr}
      (openingKind : opening.kind = .mark .openParen)
      (newlinesBefore : Newlines newlines₁)
      (valueDerives : Derives (.expression .assignment) used value (newlines₂ ++ closing :: next))
      (newlinesBehind : Newlines newlines₂)
      (closingKind : closing.kind = .mark .closeParen) :
      Derives (.expression .primary) (opening :: (newlines₁ ++ used ++ newlines₂ ++ [closing]))
        value next
  | array
      {used next : List Token} {opening : Token} {items : List Expr}
      (openingKind : opening.kind = .mark .openBracket)
      (itemsDerive : Derives (.list .closeBracket .value) used items next) :
      Derives (.expression .primary) (opening :: used) (.array opening.position items) next
  | object
      {used next : List Token} {opening : Token} {fields : List Field}
      (openingKind : opening.kind = .mark .openBrace)
      (fieldsDerive : Derives (.list .closeBrace .field) used fields next) :
      Derives (.expression .primary) (opening :: used) (.object opening.position fields) next
  -- Functions.
  | calledOnTheSpot
      {exported : Bool} {used next : List Token} {keyword colon₁ colon₂ : Token} {value : Expr}
      (keywordKind : keyword.kind = .keyword .fnWord ∨ keyword.kind = .keyword .lambdaWord)
      (colonKind₁ : colon₁.kind = .mark .colon)
      (colonKind₂ : colon₂.kind = .mark .colon)
      (valueDerives : Derives (.expression .assignment) used value next) :
      Derives (.function exported) (keyword :: colon₁ :: colon₂ :: used)
        (.call keyword.position
          (.function keyword.position none exported [] (Rules.returnBody value)) []) next
  | betweenColons
      {exported : Bool} {used₁ used₂ next : List Token} {keyword colon₁ colon₂ : Token}
      {parameters : List Parameter} {value : Expr}
      (keywordKind : keyword.kind = .keyword .fnWord ∨ keyword.kind = .keyword .lambdaWord)
      (colonKind₁ : colon₁.kind = .mark .colon)
      (parametersDerive : Derives .parameters used₁ parameters (colon₂ :: (used₂ ++ next)))
      (parametersSpelled : used₁ ≠ [])
      (colonKind₂ : colon₂.kind = .mark .colon)
      (valueDerives : Derives (.expression .ternary) used₂ value next) :
      Derives (.function exported) (keyword :: colon₁ :: (used₁ ++ colon₂ :: used₂))
        (.function keyword.position none exported parameters (Rules.returnBody value)) next
  | named
      {exported : Bool} {used₁ used₂ next : List Token} {keyword name : Token}
      {parameters : List Parameter} {body : List Stmt}
      (keywordKind : keyword.kind = .keyword .fnWord)
      (nameKind : name.kind = .identifier)
      (parametersDerive : Derives .parameters used₁ parameters (used₂ ++ next))
      (bodyDerives : Derives .functionBody used₂ body next) :
      Derives (.function exported) (keyword :: name :: (used₁ ++ used₂))
        (.function keyword.position (some name.lexeme) exported parameters body) next
  | unnamed
      {exported : Bool} {used₁ used₂ next : List Token} {keyword : Token}
      {parameters : List Parameter} {body : List Stmt}
      (keywordKind : keyword.kind = .keyword .fnWord ∧ kindAhead (used₁ ++ used₂) ≠ .identifier ∨
        keyword.kind = .keyword .lambdaWord)
      (noColon : kindAhead (used₁ ++ used₂) ≠ .mark .colon)
      (parametersDerive : Derives .parameters used₁ parameters (used₂ ++ next))
      (bodyDerives : Derives .functionBody used₂ body next) :
      Derives (.function exported) (keyword :: (used₁ ++ used₂))
        (.function keyword.position none exported parameters body) next
  | functionBlock
      {used next : List Token} {body : List Stmt}
      (blockDerives : Derives .block used body next) :
      Derives .functionBody used body next
  | functionValue
      {used next : List Token} {colon : Token} {value : Expr}
      (colonKind : colon.kind = .mark .colon)
      (valueDerives : Derives (.expression .ternary) used value next) :
      Derives .functionBody (colon :: used) (Rules.returnBody value) next
  | listedParameters
      {used next : List Token} {opening : Token} {parameters : List Parameter}
      (openingKind : opening.kind = .mark .openParen)
      (parametersDerive : Derives (.list .closeParen .parameter) used parameters next) :
      Derives .parameters (opening :: used) parameters next
  | unlistedParameters
      {used next : List Token} {parameters : List Parameter}
      (noList : kindAhead (used ++ next) ≠ .mark .openParen)
      (parametersDerive : Derives .bareParameters used parameters next) :
      Derives .parameters used parameters next
  | noParameters
      {next : List Token}
      (ends : kindAhead next ≠ .identifier) :
      Derives .bareParameters [] [] next
  | requiredParameters
      {used next : List Token} {name : Token} {others : List Parameter}
      (nameKind : name.kind = .identifier)
      (noDefault : kindAhead (used ++ next) ≠ .sign .assign)
      (othersDerive : Derives .bareParameters used others next) :
      Derives .bareParameters (name :: used) (.required name.lexeme :: others) next
  | optionalParameters
      {used₁ used₂ next : List Token} {name equals opening closing : Token} {default : Expr}
      {others : List Parameter}
      (nameKind : name.kind = .identifier)
      (equalsKind : equals.kind = .sign .assign)
      (openingKind : opening.kind = .mark .openParen)
      (defaultDerives : Derives (.expression .assignment) used₁ default
        (closing :: (used₂ ++ next)))
      (closingKind : closing.kind = .mark .closeParen)
      (othersDerive : Derives .bareParameters used₂ others next) :
      Derives .bareParameters (name :: equals :: opening :: (used₁ ++ closing :: used₂))
        (.optional name.lexeme default :: others) next
  -- Lists.
  | value
      {used next : List Token} {value : Expr}
      (valueDerives : Derives (.expression .assignment) used value next) :
      Derives (.item .value) used value next
  | field
      {newlines₁ newlines₂ used next : List Token} {key colon : Token} {value : Expr}
      (keyKind : key.kind = .identifier ∨ key.kind = .string)
      (newlinesBefore : Newlines newlines₁)
      (colonKind : colon.kind = .mark .colon)
      (newlinesBehind : Newlines newlines₂)
      (valueDerives : Derives (.expression .assignment) used value next) :
      Derives (.item .field) (key :: (newlines₁ ++ colon :: (newlines₂ ++ used)))
        (.mk key.lexeme value) next
  /-- A key on its own stands for the variable of its name. -/
  | shorthand
      {newlines next : List Token} {key : Token}
      (keyKind : key.kind = .identifier ∨ key.kind = .string)
      (newlinesBehind : Newlines newlines)
      (ends : kindAhead next = .mark .comma ∨ kindAhead next = .mark .closeBrace) :
      Derives (.item .field) (key :: newlines)
        (.mk key.lexeme (.name key.position key.lexeme)) next
  | requiredParameter
      {next : List Token} {name : Token}
      (nameKind : name.kind = .identifier)
      (noDefault : kindAhead next ≠ .sign .assign) :
      Derives (.item .parameter) [name] (.required name.lexeme) next
  | optionalParameter
      {used next : List Token} {name equals : Token} {default : Expr}
      (nameKind : name.kind = .identifier)
      (equalsKind : equals.kind = .sign .assign)
      (defaultDerives : Derives (.expression .ternary) used default next) :
      Derives (.item .parameter) (name :: equals :: used) (.optional name.lexeme default) next
  | list
      {mark : Mark} {item : Item} {newlines used next : List Token} {items : List item.Tree}
      (newlinesBefore : Newlines newlines)
      (itemsDerive : Derives (.items mark item) used items next) :
      Derives (.list mark item) (newlines ++ used) items next
  | noItems
      {mark : Mark} {item : Item} {next : List Token} {closing : Token}
      (closingKind : closing.kind = .mark mark) :
      Derives (.items mark item) [closing] [] next
  | lastItem
      {mark : Mark} {item : Item} {used newlines next : List Token} {closing : Token}
      {last : item.Tree}
      (lastDerives : Derives (.item item) used last (newlines ++ closing :: next))
      (newlinesBehind : Newlines newlines)
      (closingKind : closing.kind = .mark mark) :
      Derives (.items mark item) (used ++ newlines ++ [closing]) [last] next
  | moreItems
      {mark : Mark} {item : Item} {used₁ newlines₁ newlines₂ used₂ next : List Token}
      {comma : Token} {first : item.Tree} {others : List item.Tree}
      (firstDerives : Derives (.item item) used₁ first
        (newlines₁ ++ comma :: (newlines₂ ++ used₂ ++ next)))
      (newlinesBefore : Newlines newlines₁)
      (commaKind : comma.kind = .mark .comma)
      (newlinesBehind : Newlines newlines₂)
      (othersDerive : Derives (.items mark item) used₂ others next) :
      Derives (.items mark item) (used₁ ++ newlines₁ ++ comma :: (newlines₂ ++ used₂))
        (first :: others) next
  -- Blocks and statements.
  | block
      {separators used next : List Token} {opening closing : Token} {statements : List Stmt}
      (openingKind : opening.kind = .mark .openBrace)
      (separated : Separators separators)
      (statementsDerive : Derives .statements used statements (closing :: next))
      (closingKind : closing.kind = .mark .closeBrace) :
      Derives .block (opening :: (separators ++ used ++ [closing])) statements next
  | bodyBlock
      {used next : List Token} {statements : List Stmt}
      (blockDerives : Derives .block used statements next) :
      Derives .body used statements next
  | bodyStatement
      {used next : List Token} {colon : Token} {statement : Stmt}
      (colonKind : colon.kind = .mark .colon)
      (statementDerives : Derives .statement used statement next) :
      Derives .body (colon :: used) [statement] next
  | noStatements
      {next : List Token}
      (ends : kindAhead next = .mark .closeBrace ∨ kindAhead next = .eof) :
      Derives .statements [] [] next
  | moreStatements
      {used₁ separators used₂ next : List Token} {first : Stmt} {others : List Stmt}
      (firstDerives : Derives .statement used₁ first (separators ++ used₂ ++ next))
      (separated : Separators separators)
      (othersDerive : Derives .statements used₂ others next) :
      Derives .statements (used₁ ++ separators ++ used₂) (first :: others) next
  | ended
      {used next : List Token} {semicolon : Token} {statement : Stmt}
      (statementDerives : Derives .bareStatement used statement (semicolon :: next))
      (semicolonKind : semicolon.kind = .mark .semicolon) :
      Derives .statement (used ++ [semicolon]) statement next
  | unended
      {used next : List Token} {statement : Stmt}
      (statementDerives : Derives .bareStatement used statement next)
      (noSemicolon : kindAhead next ≠ .mark .semicolon) :
      Derives .statement used statement next
  | branchStatement
      {used next : List Token} {statement : Stmt}
      (branchDerives : Derives .branch used statement next) :
      Derives .bareStatement used statement next
  | whileLoop
      {used₁ used₂ next : List Token} {keyword : Token} {test : Expr} {body : List Stmt}
      (keywordKind : keyword.kind = .keyword .whileWord)
      (testDerives : Derives (.expression .assignment) used₁ test (used₂ ++ next))
      (bodyDerives : Derives .body used₂ body next) :
      Derives .bareStatement (keyword :: (used₁ ++ used₂))
        (.whileLoop keyword.position test body) next
  | forLoop
      {used₁ used₂ used₃ used₄ next : List Token} {keyword semicolon₁ semicolon₂ : Token}
      {start test update : Expr} {body : List Stmt}
      (keywordKind : keyword.kind = .keyword .forWord)
      (startDerives : Derives (.expression .assignment) used₁ start
        (semicolon₁ :: (used₂ ++ semicolon₂ :: (used₃ ++ used₄ ++ next))))
      (semicolonKind₁ : semicolon₁.kind = .mark .semicolon)
      (testDerives : Derives (.expression .assignment) used₂ test
        (semicolon₂ :: (used₃ ++ used₄ ++ next)))
      (semicolonKind₂ : semicolon₂.kind = .mark .semicolon)
      (updateDerives : Derives (.expression .assignment) used₃ update (used₄ ++ next))
      (bodyDerives : Derives .block used₄ body next) :
      Derives .bareStatement
        (keyword :: (used₁ ++ semicolon₁ :: (used₂ ++ semicolon₂ :: (used₃ ++ used₄))))
        (.forLoop keyword.position start test update body) next
  | returnValue
      {used next : List Token} {keyword : Token} {value : Expr}
      (keywordKind : keyword.kind = .keyword .returnWord)
      (valueDerives : Derives (.expression .assignment) used value next) :
      Derives .bareStatement (keyword :: used) (.returnValue keyword.position value) next
  | returnNothing
      {next : List Token} {keyword : Token}
      (keywordKind : keyword.kind = .keyword .returnWord)
      (ends : kindAhead next = .newline ∨ kindAhead next = .mark .semicolon ∨
        kindAhead next = .mark .closeBrace ∨ kindAhead next = .eof) :
      Derives .bareStatement [keyword] (.returnNothing keyword.position) next
  | debugList
      {used next : List Token} {keyword opening : Token} {values : List Expr}
      (keywordKind : keyword.kind = .keyword .debugWord)
      (openingKind : opening.kind = .mark .openBrace)
      (valuesDerive : Derives (.list .closeBrace .value) used values next) :
      Derives .bareStatement (keyword :: opening :: used) (.debug keyword.position values) next
  | debugValue
      {used next : List Token} {keyword : Token} {value : Expr}
      (keywordKind : keyword.kind = .keyword .debugWord)
      (noList : kindAhead used ≠ .mark .openBrace)
      (valueDerives : Derives (.expression .assignment) used value next) :
      Derives .bareStatement (keyword :: used) (.debug keyword.position [value]) next
  | use
      {next : List Token} {keyword path : Token}
      (keywordKind : keyword.kind = .keyword .useWord)
      (pathKind : path.kind = .string) :
      Derives .bareStatement [keyword, path] (.use keyword.position path.lexeme) next
  | exported
      {used next : List Token} {keyword : Token} {function : Expr}
      (keywordKind : keyword.kind = .keyword .outWord)
      (functionKind : kindAhead used = .keyword .fnWord)
      (functionDerives : Derives (.function true) used function next) :
      Derives .bareStatement (keyword :: used) (.expr keyword.position function) next
  | expressionStatement
      {used next : List Token} {value : Expr}
      (valueDerives : Derives (.expression .assignment) used value next) :
      Derives .bareStatement used (.expr value.position value) next
  | ifElse
      {used₁ used₂ newlines used₃ next : List Token} {keyword otherwise : Token} {test : Expr}
      {consequent alternate : List Stmt}
      (keywordKind : keyword.kind = .keyword .ifWord)
      (testDerives : Derives (.expression .assignment) used₁ test
        (used₂ ++ newlines ++ otherwise :: (used₃ ++ next)))
      (consequentDerives : Derives .body used₂ consequent
        (newlines ++ otherwise :: (used₃ ++ next)))
      (newlinesBefore : Newlines newlines)
      (otherwiseKind : otherwise.kind = .keyword .elseWord)
      (alternateDerives : Derives .alternative used₃ alternate next) :
      Derives .branch (keyword :: (used₁ ++ used₂ ++ newlines ++ otherwise :: used₃))
        (.branch keyword.position test consequent alternate) next
  | ifOnly
      {used₁ used₂ next : List Token} {keyword : Token} {test : Expr} {consequent : List Stmt}
      (keywordKind : keyword.kind = .keyword .ifWord)
      (testDerives : Derives (.expression .assignment) used₁ test (used₂ ++ next))
      (consequentDerives : Derives .body used₂ consequent next)
      (noElse : kindAhead (next.dropWhile (·.kind == .newline)) ≠ .keyword .elseWord) :
      Derives .branch (keyword :: (used₁ ++ used₂))
        (.branch keyword.position test consequent []) next
  | elseIf
      {used next : List Token} {statement : Stmt}
      (branchDerives : Derives .branch used statement next) :
      Derives .alternative used [statement] next
  | elseBlock
      {used next : List Token} {statements : List Stmt}
      (blockDerives : Derives .block used statements next) :
      Derives .alternative used statements next
  | elseColon
      {used next : List Token} {colon : Token} {statement : Stmt}
      (colonKind : colon.kind = .mark .colon)
      (statementDerives : Derives .statement used statement next) :
      Derives .alternative (colon :: used) [statement] next
  | elseStatement
      {used next : List Token} {statement : Stmt}
      (noBranch : kindAhead used ≠ .keyword .ifWord)
      (noBlock : kindAhead used ≠ .mark .openBrace)
      (statementDerives : Derives .statement used statement next) :
      Derives .alternative used [statement] next
  | program
      {separators used : List Token} {statements : List Stmt}
      (separated : Separators separators)
      (statementsDerive : Derives .statements used statements []) :
      Derives .program (separators ++ used) statements []

/-! ## Operators -/

/-- An operator between two operands computes both of them, or leaves the right one out at times. -/
theorem Chain.exists_of_operation?
    {chain : Chain}
    {sign : Token}
    {operation : Position → Expr → Expr → Expr}
    (found : chain.operation? sign = some operation) :
    (∃ op : BinaryOp, operation = (Expr.binary · op)) ∨
      ∃ op : LogicalOp, operation = (Expr.logical · op) := by
  cases chain <;>
    simp only [Chain.operation?, Rules.logicalOperator?, Rules.equalityOperator?,
      Rules.comparisonOperator?, Rules.sumOperator?, Rules.productOperator?] at found <;>
    repeat' split at found
  all_goals cases found
  all_goals first | exact .inl ⟨_, rfl⟩ | exact .inr ⟨_, rfl⟩

/-- An operator before its operand takes its own position along. -/
theorem exists_of_leading?
    {sign : Token}
    {operation : Expr → Expr}
    (found : Rules.leading? sign = some operation) :
    (∃ op : UnaryOp, operation = Expr.unary sign.position op) ∨
      ∃ op : StepOp, operation = Expr.step sign.position .before op := by
  unfold Rules.leading? at found
  repeat' split at found
  all_goals cases found
  all_goals first | exact .inl ⟨_, rfl⟩ | exact .inr ⟨_, rfl⟩

/-! ## First tokens -/

/-- The kinds of token that a value can begin with if no operator stands before it. -/
def beginsOperand : Token.Kind → Bool
  | .identifier | .string | .int | .float => true
  | .keyword word =>
    match word with
    | .fnWord | .lambdaWord | .typeofWord | .trueWord | .falseWord | .undefWord => true
    | _ => false
  | .mark mark =>
    match mark with
    | .openParen | .openBracket | .openBrace => true
    | _ => false
  | _ => false

/-- The kinds of token that a value can begin with. -/
def beginsValue : Token.Kind → Bool
  | .operator | .sign .bang | .sign .increment | .sign .decrement => true
  | kind => beginsOperand kind

/-- The kinds of token that a statement can begin with. -/
def beginsStatement : Token.Kind → Bool
  | .keyword .elseWord => false
  | .keyword _ => true
  | kind => beginsValue kind

/-- The kinds of token that an item can begin with. -/
def Item.begins : Item → Token.Kind → Bool
  | .value, kind => beginsValue kind
  | .field, kind => kind = .identifier || kind = .string
  | .parameter, kind => kind = .identifier

/-- The kinds of token that a form can begin with; a form that may be empty is not restricted. -/
def Form.begins : Form → Token.Kind → Bool
  | .expression .suffixed, kind | .expression .primary, kind | .accesses, kind =>
    beginsOperand kind
  | .expression _, kind | .operations _, kind => beginsValue kind
  | .function _, kind => kind = .keyword .fnWord || kind = .keyword .lambdaWord
  | .functionBody, kind | .body, kind => kind = .mark .openBrace || kind = .mark .colon
  | .block, kind => kind = .mark .openBrace
  | .item entry, kind => entry.begins kind
  | .items mark entry, kind => kind = .mark mark || entry.begins kind
  | .statement, kind | .bareStatement, kind => beginsStatement kind
  | .branch, kind => kind = .keyword .ifWord
  | .alternative, kind => beginsStatement kind || kind = .mark .colon
  | _, _ => true

@[simp] theorem kindAhead_nil :
    kindAhead [] = .eof :=
  rfl

@[simp] theorem kindAhead_cons
    (token : Token)
    (next : List Token) :
    kindAhead (token :: next) = token.kind :=
  rfl

/-- What stands behind a run of tokens does not show if a token is in it. -/
theorem kindAhead_append
    {used : List Token}
    (next : List Token)
    (spelled : used ≠ []) :
    kindAhead (used ++ next) = kindAhead used := by
  cases used with
  | nil => exact absurd rfl spelled
  | cons token used => rfl

/-- Whatever begins a value begins a statement. -/
theorem beginsStatement_of_beginsValue
    {kind : Token.Kind}
    (begins : beginsValue kind = true) :
    beginsStatement kind = true := by
  cases kind with
  | keyword word => cases word <;> simp_all [beginsValue, beginsOperand, beginsStatement]
  | _ => exact begins

/-- Whatever begins an operand begins a value. -/
theorem beginsValue_of_beginsOperand
    {kind : Token.Kind}
    (begins : beginsOperand kind = true) :
    beginsValue kind = true := by
  cases kind with
  | sign sign => cases begins
  | operator => rfl
  | _ => exact begins

/-- A form that begins with another one begins with the same token. -/
theorem begins_append
    {begins : Token.Kind → Bool}
    {used : List Token}
    (next : List Token)
    (noEnd : begins .eof = false)
    (usedBegins : begins (kindAhead used) = true) :
    begins (kindAhead (used ++ next)) = true := by
  rw [kindAhead_append]
  · exact usedBegins
  · rintro rfl
    rw [kindAhead_nil, noEnd] at usedBegins
    exact absurd usedBegins Bool.false_ne_true

/-- An operator before its operand is a token that a value can begin with. -/
theorem beginsValue_of_leading
    {sign : Token}
    {operation : Expr → Expr}
    (signOperation : Rules.leading? sign = some operation) :
    beginsValue sign.kind = true := by
  unfold Rules.leading? at signOperation
  split at signOperation <;> simp_all [beginsValue]

/-- A token that begins a value without an operator is no operator. -/
theorem leading?_of_beginsOperand
    {token : Token}
    (begins : beginsOperand token.kind = true) :
    Rules.leading? token = none := by
  unfold Rules.leading?
  split <;> simp_all [beginsOperand]

theorem Item.begins_eof
    (item : Item) :
    item.begins .eof = false := by
  cases item <;> rfl

/-- Every form begins with a token that can begin it. -/
theorem Derives.begins
    {form : Form}
    {used next : List Token}
    {tree : form.Tree}
    (derives : Derives form used tree next) :
    form.begins (kindAhead used) = true := by
  induction derives with
  | assign _ _ _ targetBegins _
  | compoundAssign _ _ _ targetBegins _
  | declare _ _ _ _ _ targetBegins _ => exact begins_append _ rfl targetBegins
  | choice _ _ _ _ _ testBegins _ _ => exact begins_append _ rfl testBegins
  | operation _ _ _ leftBegins _ => exact begins_append _ rfl leftBegins
  | call _ _ _ calleeBegins _ => exact begins_append _ rfl calleeBegins
  | member _ _ _ subjectBegins => exact begins_append _ rfl subjectBegins
  | index _ _ _ _ _ _ subjectBegins _ => exact begins_append _ rfl subjectBegins
  | leading signOperation _ _ => exact beginsValue_of_leading signOperation
  | ended _ _ statementBegins => exact begins_append _ rfl statementBegins
  | trailing _ _ operandBegins =>
    exact beginsValue_of_beginsOperand (begins_append _ rfl operandBegins)
  | unstepped _ _ valueBegins => exact beginsValue_of_beginsOperand valueBegins
  | number kind _ => rcases kind with kind | kind <;> simp [Form.begins, kind, beginsOperand]
  | lambda _ valueBegins =>
    simp only [Form.begins, Bool.or_eq_true, decide_eq_true_eq] at valueBegins
    rcases valueBegins with kind | kind <;> simp [Form.begins, kind, beginsOperand]
  | calledOnTheSpot keywordKind | betweenColons keywordKind =>
    rcases keywordKind with keywordKind | keywordKind <;> simp [Form.begins, keywordKind]
  | unnamed keywordKind =>
    rcases keywordKind with ⟨keywordKind, _⟩ | keywordKind <;> simp [Form.begins, keywordKind]
  | field keyKind | shorthand keyKind =>
    rcases keyKind with keyKind | keyKind <;> simp [Form.begins, Item.begins, keyKind]
  | noItems closingKind => simp [Form.begins, closingKind]
  | @lastItem _ item _ _ _ _ _ _ _ _ lastBegins =>
    rw [List.append_assoc]
    exact (Bool.or_eq_true ..).mpr (Or.inr (begins_append _ item.begins_eof lastBegins))
  | @moreItems _ item _ _ _ _ _ _ _ _ _ _ _ _ _ firstBegins _ =>
    rw [List.append_assoc]
    exact (Bool.or_eq_true ..).mpr (Or.inr (begins_append _ item.begins_eof firstBegins))
  | branchStatement _ branchBegins =>
    simp only [Form.begins, decide_eq_true_eq] at branchBegins
    simp [Form.begins, branchBegins, beginsStatement]
  | expressionStatement _ valueBegins => exact beginsStatement_of_beginsValue valueBegins
  | elseIf _ branchBegins =>
    simp only [Form.begins, decide_eq_true_eq] at branchBegins
    simp [Form.begins, branchBegins, beginsStatement]
  | elseBlock _ blockBegins =>
    simp only [Form.begins, decide_eq_true_eq] at blockBegins
    simp [Form.begins, blockBegins, beginsStatement, beginsValue, beginsOperand]
  | elseStatement _ _ _ statementBegins => simpa [Form.begins] using Or.inl statementBegins
  | functionBlock _ blockBegins | bodyBlock _ blockBegins =>
    simpa [Form.begins] using Or.inl blockBegins
  | moreStatements _ _ _ statementBegins _ => rfl
  | @operand chain _ _ _ _ valueBegins => cases chain <;> exact valueBegins
  | _ => simp_all [Form.begins, Item.begins, beginsOperand, beginsStatement]

/-- A form that cannot begin with the end of the source has a token of its own. -/
theorem Derives.spelled
    {form : Form}
    {used next : List Token}
    {tree : form.Tree}
    (derives : Derives form used tree next)
    (noEnd : form.begins .eof = false) :
    used ≠ [] := by
  rintro rfl
  have begins := derives.begins
  rw [kindAhead_nil, noEnd] at begins
  exact absurd begins Bool.false_ne_true

/-- The first token of a form shows whatever stands behind the form. -/
theorem Derives.begins_append
    {form : Form}
    {used next : List Token}
    {tree : form.Tree}
    (derives : Derives form used tree next)
    (noEnd : form.begins .eof = false)
    (more : List Token) :
    form.begins (kindAhead (used ++ more)) = true := by
  rw [kindAhead_append more (derives.spelled noEnd)]
  exact derives.begins

/-- A form does not begin with a token that cannot begin it. -/
theorem Derives.kindAhead_ne
    {form : Form}
    {used next : List Token}
    {tree : form.Tree}
    (derives : Derives form used tree next)
    (noEnd : form.begins .eof = false)
    {kind : Token.Kind}
    (other : form.begins kind = false)
    (more : List Token) :
    kindAhead (used ++ more) ≠ kind := by
  intro same
  have begins := derives.begins_append noEnd more
  rw [same, other] at begins
  exact absurd begins Bool.false_ne_true

end Grammar
end TinyScript
