import TinyScript.Proofs.Syntax.Relabel

/-!
# Recoding

Positions of a tree may be changed, and statements that stand behind a `return` left out.  No
run depends on either, but for the places of its faults.
-/

namespace TinyScript

/-- A statement is the end of a function. -/
def Stmt.isReturn : Stmt → Bool
  | .returnValue _ _ | .returnNothing _ => true
  | _ => false

/-- A change of code. -/
structure Recoding where
  /-- The position that takes the place of another one. -/
  move : Position → Position
  /-- Whether statements are left out that stand behind a `return` of their own list. -/
  cuts : Bool

mutual

/-- A recoded expression. -/
def Expr.recode (recoding : Recoding) : Expr → Expr
  | .number position value => .number (recoding.move position) value
  | .text position value => .text (recoding.move position) value
  | .bool position value => .bool (recoding.move position) value
  | .undefined position => .undefined (recoding.move position)
  | .null position => .null (recoding.move position)
  | .name position name => .name (recoding.move position) name
  | .array position items => .array (recoding.move position) (Expr.recodeAll recoding items)
  | .object position fields =>
    .object (recoding.move position) (Field.recodeAll recoding fields)
  | .binary position op left right =>
    .binary (recoding.move position) op (left.recode recoding) (right.recode recoding)
  | .logical position op left right =>
    .logical (recoding.move position) op (left.recode recoding) (right.recode recoding)
  | .unary position op operand => .unary (recoding.move position) op (operand.recode recoding)
  | .step position side op operand =>
    .step (recoding.move position) side op (operand.recode recoding)
  | .assign position target value =>
    .assign (recoding.move position) (target.recode recoding) (value.recode recoding)
  | .declare position flavour name value =>
    .declare (recoding.move position) flavour name (value.recode recoding)
  | .call position callee arguments =>
    .call (recoding.move position) (callee.recode recoding) (Expr.recodeAll recoding arguments)
  | .member position subject key =>
    .member (recoding.move position) (subject.recode recoding) key
  | .index position subject key =>
    .index (recoding.move position) (subject.recode recoding) (key.recode recoding)
  | .ternary position test consequent alternate =>
    .ternary (recoding.move position) (test.recode recoding) (consequent.recode recoding)
      (alternate.recode recoding)
  | .typeof position operand => .typeof (recoding.move position) (operand.recode recoding)
  | .function position name exported parameters body =>
    .function (recoding.move position) name exported (Parameter.recodeAll recoding parameters)
      (Stmt.recodeBody recoding body)

/-- Recoded expressions. -/
def Expr.recodeAll (recoding : Recoding) : List Expr → List Expr
  | [] => []
  | value :: values => value.recode recoding :: Expr.recodeAll recoding values

/-- A recoded property. -/
def Field.recode (recoding : Recoding) : Field → Field
  | .mk key value => .mk key (value.recode recoding)

/-- Recoded properties. -/
def Field.recodeAll (recoding : Recoding) : List Field → List Field
  | [] => []
  | field :: fields => field.recode recoding :: Field.recodeAll recoding fields

/-- A recoded parameter. -/
def Parameter.recode (recoding : Recoding) : Parameter → Parameter
  | .required name => .required name
  | .optional name default => .optional name (default.recode recoding)

/-- Recoded parameters. -/
def Parameter.recodeAll (recoding : Recoding) : List Parameter → List Parameter
  | [] => []
  | parameter :: parameters =>
    parameter.recode recoding :: Parameter.recodeAll recoding parameters

/-- A recoded statement. -/
def Stmt.recode (recoding : Recoding) : Stmt → Stmt
  | .expr position value => .expr (recoding.move position) (value.recode recoding)
  | .branch position test consequent alternate =>
    .branch (recoding.move position) (test.recode recoding) (Stmt.recodeBody recoding consequent)
      (Stmt.recodeBody recoding alternate)
  | .whileLoop position test body =>
    .whileLoop (recoding.move position) (test.recode recoding) (Stmt.recodeBody recoding body)
  | .forLoop position start test update body =>
    .forLoop (recoding.move position) (start.recode recoding) (test.recode recoding)
      (update.recode recoding) (Stmt.recodeBody recoding body)
  | .returnValue position value => .returnValue (recoding.move position) (value.recode recoding)
  | .returnNothing position => .returnNothing (recoding.move position)
  | .debug position values => .debug (recoding.move position) (Expr.recodeAll recoding values)
  | .use position path => .use (recoding.move position) path

/-- Recoded statements, if need be up to the first `return` among them only. -/
def Stmt.recodeBody (recoding : Recoding) : List Stmt → List Stmt
  | [] => []
  | statement :: statements =>
    statement.recode recoding ::
      if recoding.cuts && statement.isReturn then [] else Stmt.recodeBody recoding statements

end

variable (recoding : Recoding)

/-! ## Lists -/

@[simp] theorem Expr.recodeAll_eq_map
    (values : List Expr) :
    Expr.recodeAll recoding values = values.map (Expr.recode recoding) := by
  induction values with
  | nil => rfl
  | cons value values ih => rw [Expr.recodeAll, ih, List.map_cons]

@[simp] theorem Field.recodeAll_eq_map
    (fields : List Field) :
    Field.recodeAll recoding fields = fields.map (Field.recode recoding) := by
  induction fields with
  | nil => rfl
  | cons field fields ih => rw [Field.recodeAll, ih, List.map_cons]

@[simp] theorem Parameter.recodeAll_eq_map
    (parameters : List Parameter) :
    Parameter.recodeAll recoding parameters = parameters.map (Parameter.recode recoding) := by
  induction parameters with
  | nil => rfl
  | cons parameter parameters ih => rw [Parameter.recodeAll, ih, List.map_cons]

/-! ## Changing positions only -/

/-- The change of positions, which leaves out nothing. -/
abbrev Recoding.moving (change : Position → Position) : Recoding :=
  { move := change, cuts := false }

/-- Where positions are moved only, no statement of a body is cut off. -/
@[simp] theorem Stmt.recodeBody_moving
    (change : Position → Position)
    (statements : List Stmt) :
    Stmt.recodeBody (.moving change) statements =
      statements.map (Stmt.recode (.moving change)) := by
  induction statements with
  | nil => rfl
  | cons statement statements ih => simp [Stmt.recodeBody, ih]

/-- Changing positions is one way to recode. -/
theorem inherited_relabel_eq_recode
    (change : Position → Position) :
    Inherited
      (fun value => value.relabel change = value.recode (.moving change))
      (fun field => field.relabel change = field.recode (.moving change))
      (fun parameter => parameter.relabel change = parameter.recode (.moving change))
      (fun statement => statement.relabel change = statement.recode (.moving change)) where
  number position value := rfl
  text position value := rfl
  bool position value := rfl
  undefined position := rfl
  null position := rfl
  name position name := rfl
  array position items each := by
    simpa [Expr.relabel, Expr.recode] using each
  object position fields each := by
    simpa [Expr.relabel, Expr.recode] using each
  binary position op left right ofLeft ofRight := by
    simp [Expr.relabel, Expr.recode, ofLeft, ofRight]
  logical position op left right ofLeft ofRight := by
    simp [Expr.relabel, Expr.recode, ofLeft, ofRight]
  unary position op operand ofOperand := by
    simp [Expr.relabel, Expr.recode, ofOperand]
  step position side op operand ofOperand := by
    simp [Expr.relabel, Expr.recode, ofOperand]
  assign position target value ofTarget ofValue := by
    simp [Expr.relabel, Expr.recode, ofTarget, ofValue]
  declare position flavour name value ofValue := by
    simp [Expr.relabel, Expr.recode, ofValue]
  call position callee arguments ofCallee each := by
    simpa [Expr.relabel, Expr.recode, ofCallee] using each
  member position subject key ofSubject := by
    simp [Expr.relabel, Expr.recode, ofSubject]
  index position subject key ofSubject ofKey := by
    simp [Expr.relabel, Expr.recode, ofSubject, ofKey]
  ternary position test consequent alternate ofTest ofConsequent ofAlternate := by
    simp [Expr.relabel, Expr.recode, ofTest, ofConsequent, ofAlternate]
  typeof position operand ofOperand := by
    simp [Expr.relabel, Expr.recode, ofOperand]
  function position name exported parameters body eachParameter eachStatement := by
    simpa [Expr.relabel, Expr.recode] using ⟨eachParameter, eachStatement⟩
  field key value ofValue := by simp [Field.relabel, Field.recode, ofValue]
  required name := rfl
  optional name default ofDefault := by simp [Parameter.relabel, Parameter.recode, ofDefault]
  expr position value ofValue _ _ := by simp [Stmt.relabel, Stmt.recode, ofValue]
  branch position test consequent alternate ofTest eachConsequent eachAlternate := by
    simpa [Stmt.relabel, Stmt.recode, ofTest] using ⟨eachConsequent, eachAlternate⟩
  whileLoop position test body ofTest each := by
    simpa [Stmt.relabel, Stmt.recode, ofTest] using each
  forLoop position start test update body ofStart ofTest ofUpdate each := by
    simpa [Stmt.relabel, Stmt.recode, ofStart, ofTest, ofUpdate] using each
  returnValue position value ofValue := by
    simp [Stmt.relabel, Stmt.recode, ofValue]
  returnNothing position := rfl
  debug position values each := by
    simpa [Stmt.relabel, Stmt.recode] using each
  use position path := rfl

/-- To move the positions in an expression is to rewrite it. -/
theorem Expr.relabel_eq_recode
    (change : Position → Position) :
    Expr.relabel change = Expr.recode (.moving change) :=
  funext (inherited_relabel_eq_recode change).expr_all

/-- To move the positions in a property is to rewrite it. -/
theorem Field.relabel_eq_recode
    (change : Position → Position) :
    Field.relabel change = Field.recode (.moving change) :=
  funext (inherited_relabel_eq_recode change).field_all

/-- To move the positions in a parameter is to rewrite it. -/
theorem Parameter.relabel_eq_recode
    (change : Position → Position) :
    Parameter.relabel change = Parameter.recode (.moving change) :=
  funext (inherited_relabel_eq_recode change).parameter_all

/-- To move the positions in a statement is to rewrite it. -/
theorem Stmt.relabel_eq_recode
    (change : Position → Position) :
    Stmt.relabel change = Stmt.recode (.moving change) :=
  funext (inherited_relabel_eq_recode change).stmt_all

end TinyScript
