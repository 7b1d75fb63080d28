import TinyScript.Grammar.Parse
import TinyScript.Number.Read
import TinyScript.Syntax

/-!
# The grammar

Each form of the language is a parser of its own.  Where a form contains
another one behind at least one token, it takes the parser for that from a
record of rules; the forms that begin with another form call it directly.  So
rules that are right for streams of `n` tokens give rules that are right for
`n + 1` tokens, and as many rounds as there are tokens are enough.

Operators bind, from loosest to tightest: assignment and declaration, the
ternary operator, `&&` and `||` at one level, equality, comparison, sums,
products and powers at one level, prefix and postfix operators, calls and
member access.
-/

namespace TinyScript

open Parse

/-- The parsers that forms use for the forms they contain. -/
structure Rules where
  expression : Parse Expr
  ternary : Parse Expr
  unary : Parse Expr
  statement : Parse Stmt
  /-- The statement that `else if` goes on with. -/
  branch : Parse Stmt

namespace Rules

/-! ## Blocks -/

/-- Statements with newlines and semicolons between them, at most as many as the bound has
tokens. -/
def statementsUpTo (statement : Parse Stmt) (isEnd : Token → Bool) :
    (bound : List Token) → Parse (List Stmt)
  | [] => pure []
  | _ :: bound => do
    if isEnd (← peek) then
      pure []
    else
      let first ← statement
      skipSeparators
      let others ← statementsUpTo statement isEnd bound
      pure (first :: others)

/-- Statements up to a token that ends them, which is not taken. -/
def statements (statement : Parse Stmt) (isEnd : Token → Bool) : Parse (List Stmt) := do
  skipSeparators
  withAhead (statementsUpTo statement isEnd)

/-- Whether a token ends a block: the closing brace, or the end of the source. -/
def endsBlock (token : Token) : Bool :=
  token.kind == .mark .closeBrace || token.kind == .eof

/-- Statements in braces. -/
def block (rules : Rules) : Parse (List Stmt) := do
  let _ ← expect (.mark .openBrace) "expected `\x7b` to start block"
  let body ← statements rules.statement endsBlock
  let _ ← expect (.mark .closeBrace) "expected `\x7d` to close block"
  pure body

/-- The body of a branch or loop: a block, or one statement behind a colon. -/
def body (rules : Rules) (context : String) : Parse (List Stmt) := do
  if ← check (.mark .openBrace) then
    rules.block
  else if ← accept (.mark .colon) then
    pure [← rules.statement]
  else
    refuse (← peek) ("expected `\x7b` or `:` after " ++ context)

/-! ## Functions -/

/-- Parameters without parentheses: names up to the first token that is none.  A default stands
in parentheses behind an equals sign.  There are at most as many as the bound has tokens. -/
def bareParameters (rules : Rules) : (bound : List Token) → Parse (List Parameter)
  | [] => pure []
  | _ :: bound => do
    if ← check .identifier then
      let name := (← advance).lexeme
      let first ←
        if ← accept (.sign .assign) then do
          let _ ← expect (.mark .openParen) "expected `(` after `=` in default parameter"
          let default ← rules.expression
          let _ ← expect (.mark .closeParen) "expected `)` after default parameter value"
          pure (Parameter.optional name default)
        else
          pure (Parameter.required name)
      let others ← bareParameters rules bound
      pure (first :: others)
    else
      pure []

/-- One parameter in parentheses, perhaps with a default. -/
def parameter (rules : Rules) : Parse Parameter := do
  let name := (← expect .identifier "expected parameter name").lexeme
  if ← accept (.sign .assign) then
    let default ← rules.ternary
    pure (.optional name default)
  else
    pure (.required name)

/-- The parameters of a function, with or without parentheses. -/
def parameters (rules : Rules) : Parse (List Parameter) := do
  if ← accept (.mark .openParen) then
    listUpTo .closeParen "expected `)` after parameters" rules.parameter
  else
    withAhead rules.bareParameters

/-- The body of a function that only returns a value. -/
def returnBody (value : Expr) : List Stmt :=
  [.returnValue value.position value]

/-- A function from its keyword on: `fn:: value` is called on the spot, `fn: parameters: value`
and lambdas have no name. -/
def function (rules : Rules) (exported : Bool) : Parse Expr := do
  let keyword ← advance
  let position := keyword.position
  if ← accept (.mark .colon) then
    if ← accept (.mark .colon) then
      let value ← rules.expression
      pure (.call position (.function position none exported [] (returnBody value)) [])
    else
      let parameters ← rules.parameters
      let _ ← expect (.mark .colon) "expected `:` after anonymous function parameters"
      let value ← rules.ternary
      pure (.function position none exported parameters (returnBody value))
  else
    let named := keyword.kind == .keyword .fnWord && (← check .identifier)
    let name ← if named then do pure (some (← advance).lexeme) else pure none
    let parameters ← rules.parameters
    if ← check (.mark .openBrace) then
      let body ← rules.block
      pure (.function position name exported parameters body)
    else if ← accept (.mark .colon) then
      let value ← rules.ternary
      pure (.function position name exported parameters (returnBody value))
    else
      refuse (← peek) "expected `\x7b` or `:` after function parameters"

/-! ## Expressions -/

/-- One property of an object literal.  A key on its own stands for the variable of its name. -/
def field (rules : Rules) : Parse Field := do
  let key ← peek
  if key.kind = .identifier ∨ key.kind = .string then
    let _ ← advance
    skipNewlines
    if ← accept (.mark .colon) then
      skipNewlines
      let value ← rules.expression
      pure (.mk key.lexeme value)
    else if (← check (.mark .comma)) || (← check (.mark .closeBrace)) then
      pure (.mk key.lexeme (.name key.position key.lexeme))
    else
      refuse (← peek) "expected `:` after property name"
  else
    refuse key "expected property name"

/-- The forms that are no operation: literals, names, functions and whatever stands in
brackets. -/
def primary (rules : Rules) : Parse Expr := do
  let token ← peek
  let position := token.position
  match token.kind with
  | .identifier =>
    let _ ← advance
    pure (.name position token.lexeme)
  | .int | .float =>
    match Number.read? token.lexeme.toList with
    | none => refuse token "invalid number literal"
    | some value =>
      let _ ← advance
      pure (.number position value)
  | .string =>
    let _ ← advance
    pure (.text position token.lexeme)
  | .keyword .trueWord =>
    let _ ← advance
    pure (.bool position true)
  | .keyword .falseWord =>
    let _ ← advance
    pure (.bool position false)
  | .keyword .undefWord =>
    let _ ← advance
    pure (.undefined position)
  | .keyword .typeofWord =>
    let _ ← advance
    let operand ← rules.unary
    pure (.typeof position operand)
  | .keyword .fnWord | .keyword .lambdaWord => rules.function false
  | .mark .openParen =>
    let _ ← advance
    skipNewlines
    let inner ← rules.expression
    skipNewlines
    let _ ← expect (.mark .closeParen) "expected `)` after expression"
    pure inner
  | .mark .openBracket =>
    let _ ← advance
    let items ← listUpTo .closeBracket "expected `]` after array elements" rules.expression
    pure (.array position items)
  | .mark .openBrace =>
    let _ ← advance
    let fields ← listUpTo .closeBrace "expected `\x7d` after object properties" rules.field
    pure (.object position fields)
  | _ => refuseUnexpected token

/-- The name behind a point, which may be a keyword. -/
def memberName : Parse String := do
  let token ← peek
  match token.kind with
  | .identifier | .keyword _ =>
    let _ ← advance
    pure token.lexeme
  | _ => refuse token "expected property name after `.`"

/-- What a token adds behind a value: a call, or an access to a member. -/
def suffix? (rules : Rules) (token : Token) : Option (Expr → Parse Expr) :=
  match token.kind with
  | .mark .openParen => some fun callee => do
    let arguments ← listUpTo .closeParen "expected `)` after arguments" rules.expression
    pure (.call callee.position callee arguments)
  | .mark .dot => some fun subject => do
    let key ← memberName
    pure (.member subject.position subject key)
  | .mark .openBracket => some fun subject => do
    skipNewlines
    let key ← rules.expression
    skipNewlines
    let _ ← expect (.mark .closeBracket) "expected `]` after computed member"
    pure (.index subject.position subject key)
  | _ => none

/-- A value with the calls and member accesses behind it. -/
def callOrMember (rules : Rules) : Parse Expr := do
  extend rules.suffix? (← rules.primary)

/-- What an operator in front of its operand makes of that. -/
def leading? (token : Token) : Option (Expr → Expr) :=
  let position := token.position
  match token.kind with
  | .sign .bang => some (.unary position .not)
  | .sign .increment => some (.step position .before .increment)
  | .sign .decrement => some (.step position .before .decrement)
  | .operator =>
    if token.lexeme = "+" then some (.unary position .plus)
    else if token.lexeme = "-" then some (.unary position .minus)
    else none
  | _ => none

/-- The change by one that a token behind its operand stands for. -/
def trailing? (token : Token) : Option StepOp :=
  match token.kind with
  | .sign .increment => some .increment
  | .sign .decrement => some .decrement
  | _ => none

/-- A value with the operators before it, or with one change by one behind it. -/
def unaryForm (rules : Rules) : Parse Expr := do
  match leading? (← peek) with
  | some operation =>
    let _ ← advance
    let operand ← rules.unary
    pure (operation operand)
  | none =>
    let operand ← rules.callOrMember
    match trailing? (← peek) with
    | some op =>
      let _ ← advance
      pure (.step operand.position .behind op operand)
    | none => pure operand

/-- Operands with operators of one level between them, grouped from the left.  An operation has
the position of its left operand. -/
def chain (operand : Parse Expr) (operation? : Token → Option (Position → Expr → Expr → Expr)) :
    Parse Expr := do
  let first ← operand
  extend
    (fun token =>
      (operation? token).map fun operation left => do
        let right ← operand
        pure (operation left.position left right))
    first

/-- The operators of products and powers. -/
def productOperator? (token : Token) : Option (Position → Expr → Expr → Expr) :=
  if token.kind = .operator then
    if token.lexeme = "*" then some (.binary · (.arithmetic .multiply))
    else if token.lexeme = "/" then some (.binary · (.arithmetic .divide))
    else if token.lexeme = "%" then some (.binary · (.arithmetic .remainder))
    else if token.lexeme = "**" then some (.binary · (.arithmetic .power))
    else none
  else
    none

/-- The operators of sums. -/
def sumOperator? (token : Token) : Option (Position → Expr → Expr → Expr) :=
  if token.kind = .operator then
    if token.lexeme = "+" then some (.binary · (.arithmetic .add))
    else if token.lexeme = "-" then some (.binary · (.arithmetic .subtract))
    else none
  else
    none

/-- The operators of comparisons. -/
def comparisonOperator? (token : Token) : Option (Position → Expr → Expr → Expr) :=
  match token.kind with
  | .sign .less => some (.binary · (.comparison .less))
  | .sign .lessEqual => some (.binary · (.comparison .lessEqual))
  | .sign .greater => some (.binary · (.comparison .greater))
  | .sign .greaterEqual => some (.binary · (.comparison .greaterEqual))
  | _ => none

/-- The operators of equality. -/
def equalityOperator? (token : Token) : Option (Position → Expr → Expr → Expr) :=
  match token.kind with
  | .sign .equal => some (.binary · .equal)
  | .sign .notEqual => some (.binary · .notEqual)
  | _ => none

/-- The operators that may leave their right operand out. -/
def logicalOperator? (token : Token) : Option (Position → Expr → Expr → Expr) :=
  match token.kind with
  | .sign .both => some (.logical · .both)
  | .sign .either => some (.logical · .either)
  | _ => none

/-- Products, quotients, remainders and powers. -/
def product (rules : Rules) : Parse Expr :=
  chain rules.unaryForm productOperator?

/-- Sums and differences. -/
def sum (rules : Rules) : Parse Expr :=
  chain rules.product sumOperator?

/-- Comparisons. -/
def comparison (rules : Rules) : Parse Expr :=
  chain rules.sum comparisonOperator?

/-- Equalities. -/
def equality (rules : Rules) : Parse Expr :=
  chain rules.comparison equalityOperator?

/-- Conjunctions and disjunctions, which have one level. -/
def logical (rules : Rules) : Parse Expr :=
  chain rules.equality logicalOperator?

/-- A choice between two values.  The one before the colon cannot be a choice itself. -/
def ternaryForm (rules : Rules) : Parse Expr := do
  let test ← rules.logical
  if ← accept (.mark .question) then
    let consequent ← rules.logical
    let _ ← expect (.mark .colon) "expected `:` in ternary expression"
    let alternate ← rules.ternary
    pure (.ternary test.position test consequent alternate)
  else
    pure test

/-- The arithmetic operation that an assignment operator applies before it assigns. -/
def compound? (token : Token) : Option Arithmetic :=
  match token.kind with
  | .sign .plusAssign => some .add
  | .sign .minusAssign => some .subtract
  | .sign .starAssign => some .multiply
  | .sign .slashAssign => some .divide
  | _ => none

/-- The flavour that a word of a declaration stands for. -/
def flavour? (token : Token) : Option Flavour :=
  match token.kind with
  | .identifier =>
    if token.lexeme = "const" then some .const
    else if token.lexeme = "var" then some .var
    else none
  | .keyword .outWord => some .out
  | _ => none

/-- The flavour of the declaration that begins with the next token, if a colon, a flavour and
an equals sign are ahead. -/
def declarationAhead : Parse (Option Flavour) :=
  fun _ ahead =>
    match ahead with
    | colon :: word :: equals :: _ =>
      if colon.kind = .mark .colon ∧ equals.kind = .sign .assign then .ok (flavour? word, ahead)
      else .ok (none, ahead)
    | _ => .ok (none, ahead)

/-- An expression: an assignment, a declaration, or a choice on its own. -/
def assignment (rules : Rules) : Parse Expr := do
  let target ← rules.ternaryForm
  let position := target.position
  if ← accept (.sign .assign) then
    let value ← rules.expression
    pure (.assign position target value)
  else
    match compound? (← peek) with
    | some op =>
      let _ ← advance
      let value ← rules.expression
      pure (.assign position target (.binary position (.arithmetic op) target value))
    | none =>
      match ← declarationAhead with
      | none => pure target
      | some flavour =>
        match target with
        | .name _ name =>
          let _ ← advance
          let _ ← advance
          let _ ← advance
          let value ← rules.expression
          pure (.declare position flavour name value)
        | _ =>
          fun _ _ =>
            let diagnostic : Diagnostic :=
              { stage := .parser, message := "invalid declaration target" }
            .error
              ((diagnostic.withPosition position).withNote
                "only a plain name can be declared, e.g. `x: var = 1`")

/-! ## Statements -/

/-- What follows `else`: a branch of its own, a block, or one statement. -/
def alternative (rules : Rules) : Parse (List Stmt) := do
  if ← check (.keyword .ifWord) then
    pure [← rules.branch]
  else if ← check (.mark .openBrace) then
    rules.block
  else
    let _ ← accept (.mark .colon)
    pure [← rules.statement]

/-- A branch from `if` on.  Its `else` may stand behind newlines. -/
def branchForm (rules : Rules) : Parse Stmt := do
  let keyword ← advance
  let test ← rules.expression
  let consequent ← rules.body "if condition"
  let alternate ←
    if ← acceptPastNewlines (.keyword .elseWord) then rules.alternative else pure []
  pure (.branch keyword.position test consequent alternate)

/-- A loop from `while` on. -/
def whileForm (rules : Rules) : Parse Stmt := do
  let keyword ← advance
  let test ← rules.expression
  let body ← rules.body "while condition"
  pure (.whileLoop keyword.position test body)

/-- A loop from `for` on. -/
def forForm (rules : Rules) : Parse Stmt := do
  let keyword ← advance
  let start ← rules.expression
  let _ ← expect (.mark .semicolon) "expected `;` after for initializer"
  let test ← rules.expression
  let _ ← expect (.mark .semicolon) "expected `;` after for condition"
  let update ← rules.expression
  let body ← rules.block
  pure (.forLoop keyword.position start test update body)

/-- Whether a token ends a `return` that has no value. -/
def endsReturn (token : Token) : Bool :=
  token.kind == .newline || token.kind == .mark .semicolon || token.kind == .mark .closeBrace ||
    token.kind == .eof

/-- The end of a function from `return` on. -/
def returnForm (rules : Rules) : Parse Stmt := do
  let keyword ← advance
  if endsReturn (← peek) then
    pure (.returnNothing keyword.position)
  else
    let value ← rules.expression
    pure (.returnValue keyword.position value)

/-- Values to show from `debug` on: one, or a list in braces. -/
def debugForm (rules : Rules) : Parse Stmt := do
  let keyword ← advance
  if ← accept (.mark .openBrace) then
    let values ← listUpTo .closeBrace "expected `\x7d` after debug values" rules.expression
    pure (.debug keyword.position values)
  else
    let value ← rules.expression
    pure (.debug keyword.position [value])

/-- A reference to another program from `use` on. -/
def useForm : Parse Stmt := do
  let keyword ← advance
  let path ← expect .string "expected string path after `use`"
  pure (.use keyword.position path.lexeme)

/-- A function marked for use outside, from `out` on. -/
def exportForm (rules : Rules) : Parse Stmt := do
  let keyword ← advance
  if ← check (.keyword .fnWord) then
    let function ← rules.function true
    pure (.expr keyword.position function)
  else
    refuse (← peek) "expected `fn` after `out`"

/-- A statement without the semicolon behind it. -/
def bareStatement (rules : Rules) : Parse Stmt := do
  match (← peek).kind with
  | .keyword .ifWord => rules.branchForm
  | .keyword .whileWord => rules.whileForm
  | .keyword .forWord => rules.forForm
  | .keyword .returnWord => rules.returnForm
  | .keyword .debugWord => rules.debugForm
  | .keyword .useWord => useForm
  | .keyword .outWord => rules.exportForm
  | _ =>
    let value ← rules.assignment
    pure (.expr value.position value)

/-- A statement, with a semicolon behind it if there is one. -/
def statementForm (rules : Rules) : Parse Stmt := do
  let statement ← rules.bareStatement
  let _ ← accept (.mark .semicolon)
  pure statement

/-! ## All rules -/

/-- The rules of an empty stream, at which every form is refused. -/
def empty : Rules :=
  let refusal {α : Type} : Parse α := fun stop => refuseUnexpected stop stop
  { expression := refusal
    ternary := refusal
    unary := refusal
    statement := refusal
    branch := refusal }

/-- The rules of streams with one more token. -/
def next (rules : Rules) : Rules where
  expression := rules.assignment
  ternary := rules.ternaryForm
  unary := rules.unaryForm
  statement := rules.statementForm
  branch := rules.branchForm

/-- The rules of streams of at most so many tokens. -/
def upTo : (count : Nat) → Rules
  | 0 => empty
  | count + 1 => (upTo count).next

end Rules
end TinyScript
