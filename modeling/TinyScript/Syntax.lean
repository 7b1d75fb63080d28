import TinyScript.Position

/-!
# Syntax trees

A program is a list of statements.  Every node carries the position that errors
of its own are reported at: for an operation the position of its leftmost part,
for a form that begins with a keyword or a bracket the position of that.
-/

namespace TinyScript

/-- The operations on two numbers; `add` also joins text. -/
inductive Arithmetic
  | add
  | subtract
  | multiply
  | divide
  | remainder
  | power
  deriving DecidableEq, Repr

/-- How an arithmetic operation is written. -/
def Arithmetic.symbol : Arithmetic → String
  | .add => "+"
  | .subtract => "-"
  | .multiply => "*"
  | .divide => "/"
  | .remainder => "%"
  | .power => "**"

/-- The orders that two numbers can be asked for. -/
inductive Comparison
  | less
  | lessEqual
  | greater
  | greaterEqual
  deriving DecidableEq, Repr

/-- The operators that always evaluate both operands, the left one first. -/
inductive BinaryOp
  | arithmetic (op : Arithmetic)
  | equal
  | notEqual
  | comparison (op : Comparison)
  deriving DecidableEq, Repr

/-- The operators that evaluate their right operand only if the left one does not decide. -/
inductive LogicalOp
  | both
  | either
  deriving DecidableEq, Repr

/-- The operators on one value. -/
inductive UnaryOp
  | not
  | plus
  | minus
  deriving DecidableEq, Repr

/-- The two ways to change a variable by one. -/
inductive StepOp
  | increment
  | decrement
  deriving DecidableEq, Repr

/-- How a change by one is written. -/
def StepOp.symbol : StepOp → String
  | .increment => "++"
  | .decrement => "--"

/-- Which value a change by one yields: written before the variable, the new one, and written
behind it, the old one. -/
inductive StepSide
  | before
  | behind
  deriving DecidableEq, Repr

/-- The flavours of a declaration `name: flavour = value`. -/
inductive Flavour
  | const
  | var
  | out
  deriving DecidableEq, Repr

mutual

/-- An expression. -/
inductive Expr
  | number (position : Position) (value : Float)
  /-- A string literal as written, its placeholders not yet filled in. -/
  | text (position : Position) (value : String)
  | bool (position : Position) (value : Bool)
  | undefined (position : Position)
  | null (position : Position)
  | name (position : Position) (name : String)
  | array (position : Position) (items : List Expr)
  /-- An object literal in source order; of two fields of one key the later one counts. -/
  | object (position : Position) (fields : List Field)
  | binary (position : Position) (op : BinaryOp) (left right : Expr)
  | logical (position : Position) (op : LogicalOp) (left right : Expr)
  | unary (position : Position) (op : UnaryOp) (operand : Expr)
  | step (position : Position) (side : StepSide) (op : StepOp) (operand : Expr)
  | assign (position : Position) (target value : Expr)
  | declare (position : Position) (flavour : Flavour) (name : String) (value : Expr)
  | call (position : Position) (callee : Expr) (arguments : List Expr)
  /-- Access by a name written out, `subject.key`. -/
  | member (position : Position) (subject : Expr) (key : String)
  /-- Access by a computed key, `subject[key]`. -/
  | index (position : Position) (subject key : Expr)
  | ternary (position : Position) (test consequent alternate : Expr)
  | typeof (position : Position) (operand : Expr)
  /-- A function; one without a name is a lambda. -/
  | function (position : Position) (name : Option String) (exported : Bool)
      (parameters : List Parameter) (body : List Stmt)

/-- One property of an object literal. -/
inductive Field
  | mk (key : String) (value : Expr)

/-- A parameter of a function, perhaps with an expression for when no argument is given. -/
inductive Parameter
  | required (name : String)
  | optional (name : String) (default : Expr)

/-- A statement. -/
inductive Stmt
  | expr (position : Position) (value : Expr)
  | branch (position : Position) (test : Expr) (consequent alternate : List Stmt)
  | whileLoop (position : Position) (test : Expr) (body : List Stmt)
  | forLoop (position : Position) (start test update : Expr) (body : List Stmt)
  /-- The end of a function, with its result. -/
  | returnValue (position : Position) (value : Expr)
  /-- The end of a function without a result. -/
  | returnNothing (position : Position)
  | debug (position : Position) (values : List Expr)
  | use (position : Position) (path : String)

end

/-- A program is the list of its statements. -/
abbrev Program : Type := List Stmt

/-- The position of an expression. -/
def Expr.position : Expr → Position
  | .number position _ | .text position _ | .bool position _ | .undefined position
  | .null position | .name position _ | .array position _ | .object position _
  | .binary position _ _ _ | .logical position _ _ _ | .unary position _ _
  | .step position _ _ _ | .assign position _ _ | .declare position _ _ _
  | .call position _ _ | .member position _ _ | .index position _ _
  | .ternary position _ _ _ | .typeof position _ | .function position _ _ _ _ => position

/-- The name that a parameter binds. -/
def Parameter.name : Parameter → String
  | .required name => name
  | .optional name _ => name

/-- The parts of a function that do not depend on where it was made. -/
structure Function where
  /-- The name, unless it is a lambda. -/
  name : Option String
  /-- Whether it is marked for use outside. -/
  exported : Bool
  parameters : List Parameter
  body : List Stmt

end TinyScript
