import TinyScript.Proofs.Grammar.Derivation
import TinyScript.Proofs.Syntax.Relabel
import TinyScript.Proofs.Token.Spelling

/-!
# Printing programs

A printer writes a syntax tree as tokens.  Every body is a block, every statement
ends in a semicolon and every list of parameters stands in parentheses, so that
only expressions leave a choice: an expression is put in parentheses exactly where
a tighter one is called for.

Not every tree can be written.  The printable ones are those whose names, numbers
and export marks are such as a source can spell.
-/

namespace TinyScript

/-! ## Tokens -/

namespace Token

/-- The token of a word, which is a name unless it is a keyword. -/
def ofWord (word : String) : Token :=
  { kind := Scanner.wordKind word, lexeme := word, position := .start }

/-- The token of a mark. -/
def ofMark (mark : Mark) : Token :=
  { kind := .mark mark, lexeme := String.singleton mark.spelling, position := .start }

/-- The token of an operator. -/
def ofOperator (text : String) : Token :=
  { kind := Scanner.operatorKind text, lexeme := text, position := .start }

/-- The token of a string literal. -/
def ofString (text : String) : Token :=
  { kind := .string, lexeme := text, position := .start }

/-- The token of a numeral. -/
def ofNumeral (digits : List Char) : Token :=
  { kind := Scanner.numberKind digits, lexeme := String.ofList digits, position := .start }

end Token

/-- A numeral is the literal of a number if the number is read from it. -/
def IsLiteral (digits : List Char) (value : Float) : Prop :=
  Token.isNumeral digits = true ∧ Number.read? digits = some value

/-- A literal of a number, if it has any. -/
noncomputable def literal (value : Float) : List Char := by
  classical
  exact if found : ∃ digits, IsLiteral digits value then found.choose else []

/-- The literal that is printed for a number is one of those that it has. -/
theorem isLiteral_literal
    {value : Float}
    (found : ∃ digits, IsLiteral digits value) :
    IsLiteral (literal value) value := by
  rw [literal, dif_pos found]
  exact found.choose_spec

/-- A word that is no keyword. -/
def IsName (name : String) : Prop :=
  Text.isWord name.toList = true ∧ Scanner.wordKind name = .identifier

/-! ## Levels -/

/-- How an operator between two operands is written. -/
def BinaryOp.spelling : BinaryOp → String
  | .arithmetic op => op.symbol
  | .equal => Sign.equal.spelling
  | .notEqual => Sign.notEqual.spelling
  | .comparison .less => Sign.less.spelling
  | .comparison .lessEqual => Sign.lessEqual.spelling
  | .comparison .greater => Sign.greater.spelling
  | .comparison .greaterEqual => Sign.greaterEqual.spelling

/-- How an operator that may leave its right operand out is written. -/
def LogicalOp.spelling : LogicalOp → String
  | .both => Sign.both.spelling
  | .either => Sign.either.spelling

/-- How an operator on one value is written. -/
def UnaryOp.spelling : UnaryOp → String
  | .not => Sign.bang.spelling
  | .plus => "+"
  | .minus => "-"

/-- How the flavour of a declaration is written. -/
def Flavour.spelling : Flavour → String
  | .const => "const"
  | .var => "var"
  | .out => Keyword.outWord.spelling

namespace Grammar

/-- The place of a level among the levels, from the loosest on. -/
def Level.rank : Level → Nat
  | .assignment => 0
  | .ternary => 1
  | .chain .logical => 2
  | .chain .equality => 3
  | .chain .comparison => 4
  | .chain .sum => 5
  | .chain .product => 6
  | .unary => 7
  | .suffixed => 8
  | .primary => 9

/-- The level that an operator between two operands belongs to. -/
def Chain.ofBinary : BinaryOp → Chain
  | .arithmetic .add | .arithmetic .subtract => .sum
  | .arithmetic _ => .product
  | .equal | .notEqual => .equality
  | .comparison _ => .comparison

end Grammar

open Grammar

/-- Whether a change by one behind a variable is what an expression ends in.  No call, access or
further change can then be taken for a part of the expression. -/
def Expr.endsInStep : Expr → Bool
  | .step _ .behind _ _ => true
  | .step _ .before _ operand | .unary _ _ operand => operand.endsInStep
  | _ => false

/-- The tightest level of an expression that stands without parentheses. -/
def Expr.level : Expr → Level
  | .assign .. | .declare .. => .assignment
  | .ternary .. => .ternary
  | .logical .. => .chain .logical
  | .binary _ op _ _ => .chain (.ofBinary op)
  | .unary .. | .step .. => .unary
  | .typeof _ operand => if operand.endsInStep then .primary else .unary
  | .call .. | .member .. | .index .. => .suffixed
  | _ => .primary

/-! ## The printer -/

open Token

/-- Tokens between an opening and a closing mark. -/
def enclosed (opening closing : Mark) (tokens : List Token) : List Token :=
  ofMark opening :: (tokens ++ [ofMark closing])

/-- Tokens in braces. -/
def braced (tokens : List Token) : List Token :=
  enclosed .openBrace .closeBrace tokens

/-- Runs of tokens with commas between them. -/
def separated : List (List Token) → List Token
  | [] => []
  | [last] => last
  | first :: others => first ++ ofMark .comma :: separated others

/-- The tokens of an expression where one of a certain level is called for. -/
def placed (slot : Level) (value : Expr) (tokens : List Token) : List Token :=
  if value.level.rank < slot.rank then enclosed .openParen .closeParen tokens else tokens

/-- A function whose parameters and body are written as tokens. -/
def functionTokens (name : Option String) (parameters : List (List Token)) (body : List Token) :
    List Token :=
  ofWord Keyword.fnWord.spelling ::
    (name.toList.map ofWord ++
      (enclosed .openParen .closeParen (separated parameters) ++ braced body))

mutual

/-- The tokens of an expression without parentheses around the whole. -/
noncomputable def Expr.tokens : Expr → List Token
  | .number _ value => [ofNumeral (literal value)]
  | .text _ value => [ofString value]
  | .bool _ value => [ofWord (if value then Keyword.trueWord else Keyword.falseWord).spelling]
  | .undefined _ => [ofWord Keyword.undefWord.spelling]
  | .null _ => []
  | .name _ name => [ofWord name]
  | .array _ items => enclosed .openBracket .closeBracket (separated (Expr.tokensOfAll items))
  | .object _ fields => braced (separated (Field.tokensOfAll fields))
  | .binary _ op left right =>
    placed (.chain (.ofBinary op)) left left.tokens ++
      ofOperator op.spelling :: placed (Chain.ofBinary op).operand right right.tokens
  | .logical _ op left right =>
    placed (.chain .logical) left left.tokens ++
      ofOperator op.spelling :: placed Chain.logical.operand right right.tokens
  | .unary _ op operand => ofOperator op.spelling :: placed .unary operand operand.tokens
  | .step _ .before op operand => ofOperator op.symbol :: placed .unary operand operand.tokens
  | .step _ .behind op operand => placed .suffixed operand operand.tokens ++ [ofOperator op.symbol]
  | .assign _ target value =>
    placed .ternary target target.tokens ++ ofOperator Sign.assign.spelling :: value.tokens
  | .declare _ flavour name value =>
    ofWord name :: ofMark .colon :: ofWord flavour.spelling :: ofOperator Sign.assign.spelling ::
      value.tokens
  | .call _ callee arguments =>
    placed .suffixed callee callee.tokens ++
      enclosed .openParen .closeParen (separated (Expr.tokensOfAll arguments))
  | .member _ subject key =>
    placed .suffixed subject subject.tokens ++ [ofMark .dot, ofWord key]
  | .index _ subject key =>
    placed .suffixed subject subject.tokens ++ enclosed .openBracket .closeBracket key.tokens
  | .ternary _ test consequent alternate =>
    placed (.chain .logical) test test.tokens ++ ofMark .question ::
      (placed (.chain .logical) consequent consequent.tokens ++ ofMark .colon ::
        placed .ternary alternate alternate.tokens)
  | .typeof _ operand =>
    ofWord Keyword.typeofWord.spelling :: placed .unary operand operand.tokens
  | .function _ name _ parameters body =>
    functionTokens name (Parameter.tokensOfAll parameters) (Stmt.tokensOfAll body)

/-- The tokens of each of several expressions. -/
noncomputable def Expr.tokensOfAll : List Expr → List (List Token)
  | [] => []
  | value :: values => value.tokens :: Expr.tokensOfAll values

/-- The tokens of a property.  A key stands on its own for the variable of its name. -/
noncomputable def Field.tokens : Field → List Token
  | .mk key value =>
    match value with
    | .name _ name =>
      if name = key then [ofString key] else [ofString key, ofMark .colon, ofWord name]
    | value => ofString key :: ofMark .colon :: value.tokens

/-- The tokens of each of several properties. -/
noncomputable def Field.tokensOfAll : List Field → List (List Token)
  | [] => []
  | field :: fields => field.tokens :: Field.tokensOfAll fields

/-- The tokens of a parameter. -/
noncomputable def Parameter.tokens : Parameter → List Token
  | .required name => [ofWord name]
  | .optional name default =>
    ofWord name :: ofOperator Sign.assign.spelling :: placed .ternary default default.tokens

/-- The tokens of each of several parameters. -/
noncomputable def Parameter.tokensOfAll : List Parameter → List (List Token)
  | [] => []
  | parameter :: parameters => parameter.tokens :: Parameter.tokensOfAll parameters

/-- The tokens of a statement without the semicolon behind it. -/
noncomputable def Stmt.tokens : Stmt → List Token
  | .expr _ (.call _ (.function _ none true [] [.returnValue _ value]) []) =>
    ofWord Keyword.outWord.spelling :: ofWord Keyword.fnWord.spelling :: ofMark .colon ::
      ofMark .colon :: value.tokens
  | .expr _ (.function _ name true parameters body) =>
    ofWord Keyword.outWord.spelling ::
      functionTokens name (Parameter.tokensOfAll parameters) (Stmt.tokensOfAll body)
  | .expr _ value => value.tokens
  | .branch _ test consequent alternate =>
    ofWord Keyword.ifWord.spelling :: (test.tokens ++ (braced (Stmt.tokensOfAll consequent) ++
      if alternate.isEmpty then []
      else ofWord Keyword.elseWord.spelling :: braced (Stmt.tokensOfAll alternate)))
  | .whileLoop _ test body =>
    ofWord Keyword.whileWord.spelling :: (test.tokens ++ braced (Stmt.tokensOfAll body))
  | .forLoop _ start test update body =>
    ofWord Keyword.forWord.spelling :: (start.tokens ++ ofMark .semicolon ::
      (test.tokens ++ ofMark .semicolon :: (update.tokens ++ braced (Stmt.tokensOfAll body))))
  | .returnValue _ value => ofWord Keyword.returnWord.spelling :: value.tokens
  | .returnNothing _ => [ofWord Keyword.returnWord.spelling]
  | .debug _ values =>
    ofWord Keyword.debugWord.spelling :: braced (separated (Expr.tokensOfAll values))
  | .use _ path => [ofWord Keyword.useWord.spelling, ofString path]

/-- The tokens of statements, each with a semicolon behind it. -/
noncomputable def Stmt.tokensOfAll : List Stmt → List Token
  | [] => []
  | statement :: statements =>
    statement.tokens ++ ofMark .semicolon :: Stmt.tokensOfAll statements

end

/-! ## Printable programs -/

mutual

/-- An expression that a source can spell. -/
def Expr.Printable : Expr → Prop
  | .number _ value => ∃ digits, IsLiteral digits value
  | .text .. | .bool .. | .undefined _ => True
  | .null _ => False
  | .name _ name => IsName name
  | .array _ items => Expr.AllPrintable items
  | .object _ fields => Field.AllPrintable fields
  | .binary _ _ left right | .logical _ _ left right => left.Printable ∧ right.Printable
  | .unary _ _ operand | .step _ _ _ operand | .typeof _ operand => operand.Printable
  | .assign _ target value => target.Printable ∧ value.Printable
  | .declare _ _ name value => IsName name ∧ value.Printable
  | .call _ callee arguments => callee.Printable ∧ Expr.AllPrintable arguments
  | .member _ subject key => subject.Printable ∧ Text.isWord key.toList = true
  | .index _ subject key => subject.Printable ∧ key.Printable
  | .ternary _ test consequent alternate =>
    test.Printable ∧ consequent.Printable ∧ alternate.Printable
  | .function _ name exported parameters body =>
    (∀ word ∈ name, IsName word) ∧ exported = false ∧ Parameter.AllPrintable parameters ∧
      Stmt.AllPrintable body

/-- Expressions that a source can spell. -/
def Expr.AllPrintable : List Expr → Prop
  | [] => True
  | value :: values => value.Printable ∧ Expr.AllPrintable values

/-- A property that a source can spell: for the variable of its name the key is enough. -/
def Field.Printable : Field → Prop
  | .mk key value =>
    match value with
    | .name _ name => name = key ∨ IsName name
    | value => value.Printable

/-- Properties that a source can spell. -/
def Field.AllPrintable : List Field → Prop
  | [] => True
  | field :: fields => field.Printable ∧ Field.AllPrintable fields

/-- A parameter that a source can spell. -/
def Parameter.Printable : Parameter → Prop
  | .required name => IsName name
  | .optional name default => IsName name ∧ default.Printable

/-- Parameters that a source can spell. -/
def Parameter.AllPrintable : List Parameter → Prop
  | [] => True
  | parameter :: parameters => parameter.Printable ∧ Parameter.AllPrintable parameters

/-- A statement that a source can spell.  Only the function that is the whole of a statement, or
that is called on the spot there, can be marked for use outside. -/
def Stmt.Printable : Stmt → Prop
  | .expr _ (.call _ (.function _ none true [] [.returnValue _ value]) []) => value.Printable
  | .expr _ (.function _ name true parameters body) =>
    (∀ word ∈ name, IsName word) ∧ Parameter.AllPrintable parameters ∧ Stmt.AllPrintable body
  | .expr _ value => value.Printable
  | .branch _ test consequent alternate =>
    test.Printable ∧ Stmt.AllPrintable consequent ∧ Stmt.AllPrintable alternate
  | .whileLoop _ test body => test.Printable ∧ Stmt.AllPrintable body
  | .forLoop _ start test update body =>
    start.Printable ∧ test.Printable ∧ update.Printable ∧ Stmt.AllPrintable body
  | .returnValue _ value => value.Printable
  | .returnNothing _ | .use .. => True
  | .debug _ values => Expr.AllPrintable values

/-- Statements that a source can spell. -/
def Stmt.AllPrintable : List Stmt → Prop
  | [] => True
  | statement :: statements => statement.Printable ∧ Stmt.AllPrintable statements

end

/-- A program that a source can spell. -/
def Program.Printable (program : Program) : Prop :=
  Stmt.AllPrintable program

/-- The tokens of a program. -/
noncomputable def Program.tokens (program : Program) : List Token :=
  Stmt.tokensOfAll program

/-! ## Lists -/

theorem Expr.tokensOfAll_eq_map
    (values : List Expr) :
    Expr.tokensOfAll values = values.map Expr.tokens := by
  induction values with
  | nil => rfl
  | cons value values ih => rw [Expr.tokensOfAll, ih, List.map_cons]

theorem Field.tokensOfAll_eq_map
    (fields : List Field) :
    Field.tokensOfAll fields = fields.map Field.tokens := by
  induction fields with
  | nil => rfl
  | cons field fields ih => rw [Field.tokensOfAll, ih, List.map_cons]

theorem Parameter.tokensOfAll_eq_map
    (parameters : List Parameter) :
    Parameter.tokensOfAll parameters = parameters.map Parameter.tokens := by
  induction parameters with
  | nil => rfl
  | cons parameter parameters ih => rw [Parameter.tokensOfAll, ih, List.map_cons]

/-- Expressions are printable when each of them is. -/
theorem Expr.allPrintable_iff
    (values : List Expr) :
    Expr.AllPrintable values ↔ ∀ value ∈ values, value.Printable := by
  induction values with
  | nil => simp [Expr.AllPrintable]
  | cons value values ih => rw [Expr.AllPrintable, ih, List.forall_mem_cons]

theorem Field.allPrintable_iff
    (fields : List Field) :
    Field.AllPrintable fields ↔ ∀ field ∈ fields, field.Printable := by
  induction fields with
  | nil => simp [Field.AllPrintable]
  | cons field fields ih => rw [Field.AllPrintable, ih, List.forall_mem_cons]

theorem Parameter.allPrintable_iff
    (parameters : List Parameter) :
    Parameter.AllPrintable parameters ↔ ∀ parameter ∈ parameters, parameter.Printable := by
  induction parameters with
  | nil => simp [Parameter.AllPrintable]
  | cons parameter parameters ih => rw [Parameter.AllPrintable, ih, List.forall_mem_cons]

/-- Statements are printable when each of them is. -/
theorem Stmt.allPrintable_iff
    (statements : List Stmt) :
    Stmt.AllPrintable statements ↔ ∀ statement ∈ statements, statement.Printable := by
  induction statements with
  | nil => simp [Stmt.AllPrintable]
  | cons statement statements ih => rw [Stmt.AllPrintable, ih, List.forall_mem_cons]

/-! ## Expressions as statements -/

/-- An expression statement is the call of an exported function on the spot, an exported function,
or is written like the expression that it consists of. -/
theorem Stmt.expr_cases
    (position : Position)
    (value : Expr) :
    (∃ callPosition functionPosition returnPosition result,
        value = .call callPosition (.function functionPosition none true []
          [.returnValue returnPosition result]) []) ∨
      (∃ functionPosition name parameters body,
        value = .function functionPosition name true parameters body) ∨
      ((Stmt.expr position value).tokens = value.tokens ∧
        ((Stmt.expr position value).Printable ↔ value.Printable)) := by
  by_cases call : ∃ callPosition functionPosition returnPosition result,
      value = .call callPosition (.function functionPosition none true []
        [.returnValue returnPosition result]) []
  · exact .inl call
  by_cases function : ∃ functionPosition name parameters body,
      value = .function functionPosition name true parameters body
  · exact .inr (.inl function)
  have noCall (callPosition functionPosition returnPosition : Position) (result : Expr)
      (same : value = .call callPosition (.function functionPosition none true []
        [.returnValue returnPosition result]) []) : False :=
    call ⟨_, _, _, _, same⟩
  have noFunction (functionPosition : Position) (name : Option String)
      (parameters : List Parameter) (body : List Stmt)
      (same : value = .function functionPosition name true parameters body) : False :=
    function ⟨_, _, _, _, same⟩
  refine .inr (.inr ⟨?_, ?_⟩)
  · rw [Stmt.tokens]
    · exact noCall
    · exact noFunction
  · rw [Stmt.Printable]
    · exact noCall
    · exact noFunction

end TinyScript
