import TinyScript.Proofs.Syntax.Induction
import TinyScript.Token

/-!
# Changing positions

A tree with its positions changed, and nothing else.  Changing all of them to
one leaves what two trees have in common that differ only in their positions.
-/

namespace TinyScript

mutual

/-- An expression with its positions changed. -/
def Expr.relabel (change : Position → Position) : Expr → Expr
  | .number position value => .number (change position) value
  | .text position value => .text (change position) value
  | .bool position value => .bool (change position) value
  | .undefined position => .undefined (change position)
  | .null position => .null (change position)
  | .name position name => .name (change position) name
  | .array position items => .array (change position) (Expr.relabelAll change items)
  | .object position fields => .object (change position) (Field.relabelAll change fields)
  | .binary position op left right =>
    .binary (change position) op (left.relabel change) (right.relabel change)
  | .logical position op left right =>
    .logical (change position) op (left.relabel change) (right.relabel change)
  | .unary position op operand => .unary (change position) op (operand.relabel change)
  | .step position side op operand => .step (change position) side op (operand.relabel change)
  | .assign position target value =>
    .assign (change position) (target.relabel change) (value.relabel change)
  | .declare position flavour name value =>
    .declare (change position) flavour name (value.relabel change)
  | .call position callee arguments =>
    .call (change position) (callee.relabel change) (Expr.relabelAll change arguments)
  | .member position subject key => .member (change position) (subject.relabel change) key
  | .index position subject key =>
    .index (change position) (subject.relabel change) (key.relabel change)
  | .ternary position test consequent alternate =>
    .ternary (change position) (test.relabel change) (consequent.relabel change)
      (alternate.relabel change)
  | .typeof position operand => .typeof (change position) (operand.relabel change)
  | .function position name exported parameters body =>
    .function (change position) name exported (Parameter.relabelAll change parameters)
      (Stmt.relabelAll change body)

/-- Expressions with their positions changed. -/
def Expr.relabelAll (change : Position → Position) : List Expr → List Expr
  | [] => []
  | value :: values => value.relabel change :: Expr.relabelAll change values

/-- A property with its positions changed. -/
def Field.relabel (change : Position → Position) : Field → Field
  | .mk key value => .mk key (value.relabel change)

/-- Properties with their positions changed. -/
def Field.relabelAll (change : Position → Position) : List Field → List Field
  | [] => []
  | field :: fields => field.relabel change :: Field.relabelAll change fields

/-- A parameter with its positions changed. -/
def Parameter.relabel (change : Position → Position) : Parameter → Parameter
  | .required name => .required name
  | .optional name default => .optional name (default.relabel change)

/-- Parameters with their positions changed. -/
def Parameter.relabelAll (change : Position → Position) : List Parameter → List Parameter
  | [] => []
  | parameter :: parameters =>
    parameter.relabel change :: Parameter.relabelAll change parameters

/-- A statement with its positions changed. -/
def Stmt.relabel (change : Position → Position) : Stmt → Stmt
  | .expr position value => .expr (change position) (value.relabel change)
  | .branch position test consequent alternate =>
    .branch (change position) (test.relabel change) (Stmt.relabelAll change consequent)
      (Stmt.relabelAll change alternate)
  | .whileLoop position test body =>
    .whileLoop (change position) (test.relabel change) (Stmt.relabelAll change body)
  | .forLoop position start test update body =>
    .forLoop (change position) (start.relabel change) (test.relabel change)
      (update.relabel change) (Stmt.relabelAll change body)
  | .returnValue position value => .returnValue (change position) (value.relabel change)
  | .returnNothing position => .returnNothing (change position)
  | .debug position values => .debug (change position) (Expr.relabelAll change values)
  | .use position path => .use (change position) path

/-- Statements with their positions changed. -/
def Stmt.relabelAll (change : Position → Position) : List Stmt → List Stmt
  | [] => []
  | statement :: statements =>
    statement.relabel change :: Stmt.relabelAll change statements

end

/-- A token at another place. -/
def Token.relabel (change : Position → Position) (token : Token) : Token :=
  { token with position := change token.position }

variable {change : Position → Position}

/-- A token that is moved keeps its kind. -/
@[simp] theorem Token.kind_relabel
    (token : Token) :
    (token.relabel change).kind = token.kind :=
  rfl

/-- A token that is moved keeps its text. -/
@[simp] theorem Token.lexeme_relabel
    (token : Token) :
    (token.relabel change).lexeme = token.lexeme :=
  rfl

@[simp] theorem Token.position_relabel
    (token : Token) :
    (token.relabel change).position = change token.position :=
  rfl

/-- The position of an expression is moved with those in it. -/
@[simp] theorem Expr.position_relabel
    (change : Position → Position)
    (value : Expr) :
    (value.relabel change).position = change value.position := by
  cases value <;> simp [Expr.relabel, Expr.position]

/-! ## Lists -/

@[simp] theorem Expr.relabelAll_eq_map
    (values : List Expr) :
    Expr.relabelAll change values = values.map (Expr.relabel change) := by
  induction values with
  | nil => rfl
  | cons value values ih => rw [Expr.relabelAll, ih, List.map_cons]

@[simp] theorem Field.relabelAll_eq_map
    (fields : List Field) :
    Field.relabelAll change fields = fields.map (Field.relabel change) := by
  induction fields with
  | nil => rfl
  | cons field fields ih => rw [Field.relabelAll, ih, List.map_cons]

@[simp] theorem Parameter.relabelAll_eq_map
    (parameters : List Parameter) :
    Parameter.relabelAll change parameters = parameters.map (Parameter.relabel change) := by
  induction parameters with
  | nil => rfl
  | cons parameter parameters ih => rw [Parameter.relabelAll, ih, List.map_cons]

@[simp] theorem Stmt.relabelAll_eq_map
    (statements : List Stmt) :
    Stmt.relabelAll change statements = statements.map (Stmt.relabel change) := by
  induction statements with
  | nil => rfl
  | cons statement statements ih => rw [Stmt.relabelAll, ih, List.map_cons]

/-! ## Changing positions twice -/

/-- Changing positions twice is changing them once. -/
theorem inherited_relabel_relabel
    (first second : Position → Position) :
    Inherited
      (fun value => (value.relabel first).relabel second = value.relabel (second ∘ first))
      (fun field => (field.relabel first).relabel second = field.relabel (second ∘ first))
      (fun parameter =>
        (parameter.relabel first).relabel second = parameter.relabel (second ∘ first))
      (fun statement =>
        (statement.relabel first).relabel second = statement.relabel (second ∘ first)) where
  number position value := rfl
  text position value := rfl
  bool position value := rfl
  undefined position := rfl
  null position := rfl
  name position name := rfl
  array position items each := by
    simpa [Expr.relabel] using each
  object position fields each := by
    simpa [Expr.relabel] using each
  binary position op left right ofLeft ofRight := by simp [Expr.relabel, ofLeft, ofRight]
  logical position op left right ofLeft ofRight := by simp [Expr.relabel, ofLeft, ofRight]
  unary position op operand ofOperand := by simp [Expr.relabel, ofOperand]
  step position side op operand ofOperand := by simp [Expr.relabel, ofOperand]
  assign position target value ofTarget ofValue := by simp [Expr.relabel, ofTarget, ofValue]
  declare position flavour name value ofValue := by simp [Expr.relabel, ofValue]
  call position callee arguments ofCallee each := by
    simpa [Expr.relabel, ofCallee] using each
  member position subject key ofSubject := by simp [Expr.relabel, ofSubject]
  index position subject key ofSubject ofKey := by simp [Expr.relabel, ofSubject, ofKey]
  ternary position test consequent alternate ofTest ofConsequent ofAlternate := by
    simp [Expr.relabel, ofTest, ofConsequent, ofAlternate]
  typeof position operand ofOperand := by simp [Expr.relabel, ofOperand]
  function position name exported parameters body eachParameter eachStatement := by
    simpa [Expr.relabel] using ⟨eachParameter, eachStatement⟩
  field key value ofValue := by simp [Field.relabel, ofValue]
  required name := rfl
  optional name default ofDefault := by simp [Parameter.relabel, ofDefault]
  expr position value ofValue _ _ := by simp [Stmt.relabel, ofValue]
  branch position test consequent alternate ofTest eachConsequent eachAlternate := by
    simpa [Stmt.relabel, ofTest] using ⟨eachConsequent, eachAlternate⟩
  whileLoop position test body ofTest each := by
    simpa [Stmt.relabel, ofTest] using each
  forLoop position start test update body ofStart ofTest ofUpdate each := by
    simpa [Stmt.relabel, ofStart, ofTest, ofUpdate] using each
  returnValue position value ofValue := by simp [Stmt.relabel, ofValue]
  returnNothing position := rfl
  debug position values each := by
    simpa [Stmt.relabel] using each
  use position path := rfl

/-- A change that changes none of its items leaves a list as it is. -/
theorem map_eq_self
    {α : Type}
    {change : α → α}
    {items : List α}
    (each : ∀ item ∈ items, change item = item) :
    items.map change = items :=
  (List.map_congr_left each).trans (List.map_id items)

/-- Leaving positions as they are leaves everything as it is. -/
theorem inherited_relabel_id :
    Inherited
      (fun value => value.relabel id = value)
      (fun field => field.relabel id = field)
      (fun parameter => parameter.relabel id = parameter)
      (fun statement => statement.relabel id = statement) where
  number position value := rfl
  text position value := rfl
  bool position value := rfl
  undefined position := rfl
  null position := rfl
  name position name := rfl
  array position items each := by
    simp [Expr.relabel, map_eq_self each]
  object position fields each := by
    simp [Expr.relabel, map_eq_self each]
  binary position op left right ofLeft ofRight := by simp [Expr.relabel, ofLeft, ofRight]
  logical position op left right ofLeft ofRight := by simp [Expr.relabel, ofLeft, ofRight]
  unary position op operand ofOperand := by simp [Expr.relabel, ofOperand]
  step position side op operand ofOperand := by simp [Expr.relabel, ofOperand]
  assign position target value ofTarget ofValue := by simp [Expr.relabel, ofTarget, ofValue]
  declare position flavour name value ofValue := by simp [Expr.relabel, ofValue]
  call position callee arguments ofCallee each := by
    simp [Expr.relabel, ofCallee, map_eq_self each]
  member position subject key ofSubject := by simp [Expr.relabel, ofSubject]
  index position subject key ofSubject ofKey := by simp [Expr.relabel, ofSubject, ofKey]
  ternary position test consequent alternate ofTest ofConsequent ofAlternate := by
    simp [Expr.relabel, ofTest, ofConsequent, ofAlternate]
  typeof position operand ofOperand := by simp [Expr.relabel, ofOperand]
  function position name exported parameters body eachParameter eachStatement := by
    simp [Expr.relabel, map_eq_self eachParameter, map_eq_self eachStatement]
  field key value ofValue := by simp [Field.relabel, ofValue]
  required name := rfl
  optional name default ofDefault := by simp [Parameter.relabel, ofDefault]
  expr position value ofValue _ _ := by simp [Stmt.relabel, ofValue]
  branch position test consequent alternate ofTest eachConsequent eachAlternate := by
    simp [Stmt.relabel, ofTest, map_eq_self eachConsequent, map_eq_self eachAlternate]
  whileLoop position test body ofTest each := by
    simp [Stmt.relabel, ofTest, map_eq_self each]
  forLoop position start test update body ofStart ofTest ofUpdate each := by
    simp [Stmt.relabel, ofStart, ofTest, ofUpdate, map_eq_self each]
  returnValue position value ofValue := by simp [Stmt.relabel, ofValue]
  returnNothing position := rfl
  debug position values each := by
    simp [Stmt.relabel, map_eq_self each]
  use position path := rfl

/-- The positions in an expression can be moved twice at once. -/
@[simp] theorem Expr.relabel_relabel
    (first second : Position → Position)
    (value : Expr) :
    (value.relabel first).relabel second = value.relabel (second ∘ first) :=
  (inherited_relabel_relabel first second).expr_all value

/-- An expression whose positions stay is the same. -/
@[simp] theorem Expr.relabel_id
    (value : Expr) :
    value.relabel id = value :=
  inherited_relabel_id.expr_all value

@[simp] theorem Field.relabel_relabel
    (first second : Position → Position)
    (field : Field) :
    (field.relabel first).relabel second = field.relabel (second ∘ first) :=
  (inherited_relabel_relabel first second).field_all field

@[simp] theorem Field.relabel_id
    (field : Field) :
    field.relabel id = field :=
  inherited_relabel_id.field_all field

@[simp] theorem Parameter.relabel_relabel
    (first second : Position → Position)
    (parameter : Parameter) :
    (parameter.relabel first).relabel second = parameter.relabel (second ∘ first) :=
  (inherited_relabel_relabel first second).parameter_all parameter

@[simp] theorem Parameter.relabel_id
    (parameter : Parameter) :
    parameter.relabel id = parameter :=
  inherited_relabel_id.parameter_all parameter

/-- The positions in a statement can be moved twice at once. -/
@[simp] theorem Stmt.relabel_relabel
    (first second : Position → Position)
    (statement : Stmt) :
    (statement.relabel first).relabel second = statement.relabel (second ∘ first) :=
  (inherited_relabel_relabel first second).stmt_all statement

/-- A statement whose positions stay is the same. -/
@[simp] theorem Stmt.relabel_id
    (statement : Stmt) :
    statement.relabel id = statement :=
  inherited_relabel_id.stmt_all statement

/-! ## Forgetting positions -/

/-- An expression without its positions. -/
def Expr.erase : Expr → Expr :=
  Expr.relabel fun _ => .start

/-- A property without its positions. -/
def Field.erase : Field → Field :=
  Field.relabel fun _ => .start

/-- A statement without its positions. -/
def Stmt.erase : Stmt → Stmt :=
  Stmt.relabel fun _ => .start

/-- A program without its positions. -/
def Program.erase (program : Program) : Program :=
  program.map Stmt.erase

/-- A token without its place. -/
def Token.erase : Token → Token :=
  Token.relabel fun _ => .start

end TinyScript
