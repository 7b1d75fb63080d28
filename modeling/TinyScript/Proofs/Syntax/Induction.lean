import TinyScript.Syntax

/-!
# Induction on syntax

What holds of a node if it holds of its parts holds of every tree.  A statement may
also rely on the parts of an exported function that it consists of or calls on the
spot, although the function itself is not looked at there.
-/

namespace TinyScript

/-- Properties of the four kinds of nodes, each of which a node has if its parts have them. -/
structure Inherited
    (ofExpr : Expr → Prop)
    (ofField : Field → Prop)
    (ofParameter : Parameter → Prop)
    (ofStmt : Stmt → Prop) : Prop where
  number : ∀ position value, ofExpr (.number position value)
  text : ∀ position value, ofExpr (.text position value)
  bool : ∀ position value, ofExpr (.bool position value)
  undefined : ∀ position, ofExpr (.undefined position)
  null : ∀ position, ofExpr (.null position)
  name : ∀ position name, ofExpr (.name position name)
  array : ∀ position items, (∀ item ∈ items, ofExpr item) → ofExpr (.array position items)
  object : ∀ position fields, (∀ field ∈ fields, ofField field) → ofExpr (.object position fields)
  binary : ∀ position op left right, ofExpr left → ofExpr right →
    ofExpr (.binary position op left right)
  logical : ∀ position op left right, ofExpr left → ofExpr right →
    ofExpr (.logical position op left right)
  unary : ∀ position op operand, ofExpr operand → ofExpr (.unary position op operand)
  step : ∀ position side op operand, ofExpr operand → ofExpr (.step position side op operand)
  assign : ∀ position target value, ofExpr target → ofExpr value →
    ofExpr (.assign position target value)
  declare : ∀ position flavour name value, ofExpr value →
    ofExpr (.declare position flavour name value)
  call : ∀ position callee arguments, ofExpr callee → (∀ argument ∈ arguments, ofExpr argument) →
    ofExpr (.call position callee arguments)
  member : ∀ position subject key, ofExpr subject → ofExpr (.member position subject key)
  index : ∀ position subject key, ofExpr subject → ofExpr key →
    ofExpr (.index position subject key)
  ternary : ∀ position test consequent alternate, ofExpr test → ofExpr consequent →
    ofExpr alternate → ofExpr (.ternary position test consequent alternate)
  typeof : ∀ position operand, ofExpr operand → ofExpr (.typeof position operand)
  function : ∀ position name exported parameters body,
    (∀ parameter ∈ parameters, ofParameter parameter) → (∀ statement ∈ body, ofStmt statement) →
    ofExpr (.function position name exported parameters body)
  field : ∀ key value, ofExpr value → ofField (.mk key value)
  required : ∀ name, ofParameter (.required name)
  optional : ∀ name default, ofExpr default → ofParameter (.optional name default)
  expr : ∀ position value, ofExpr value →
    (∀ callPosition functionPosition returnPosition result,
      value = .call callPosition (.function functionPosition none true []
        [.returnValue returnPosition result]) [] → ofExpr result) →
    (∀ functionPosition name parameters body,
      value = .function functionPosition name true parameters body →
      (∀ parameter ∈ parameters, ofParameter parameter) ∧
        ∀ statement ∈ body, ofStmt statement) →
    ofStmt (.expr position value)
  branch : ∀ position test consequent alternate, ofExpr test →
    (∀ statement ∈ consequent, ofStmt statement) → (∀ statement ∈ alternate, ofStmt statement) →
    ofStmt (.branch position test consequent alternate)
  whileLoop : ∀ position test body, ofExpr test → (∀ statement ∈ body, ofStmt statement) →
    ofStmt (.whileLoop position test body)
  forLoop : ∀ position start test update body, ofExpr start → ofExpr test → ofExpr update →
    (∀ statement ∈ body, ofStmt statement) → ofStmt (.forLoop position start test update body)
  returnValue : ∀ position value, ofExpr value → ofStmt (.returnValue position value)
  returnNothing : ∀ position, ofStmt (.returnNothing position)
  debug : ∀ position values, (∀ value ∈ values, ofExpr value) → ofStmt (.debug position values)
  use : ∀ position path, ofStmt (.use position path)

namespace Inherited

variable {ofExpr : Expr → Prop} {ofField : Field → Prop} {ofParameter : Parameter → Prop}
  {ofStmt : Stmt → Prop}

mutual

/-- An inherited property holds of every expression. -/
theorem expr_all
    (inherited : Inherited ofExpr ofField ofParameter ofStmt)
    (value : Expr) :
    ofExpr value := by
  cases value with
  | number position value => exact inherited.number position value
  | text position value => exact inherited.text position value
  | bool position value => exact inherited.bool position value
  | undefined position => exact inherited.undefined position
  | null position => exact inherited.null position
  | name position name => exact inherited.name position name
  | array position items => exact inherited.array position items (expr_list inherited items)
  | object position fields => exact inherited.object position fields (field_list inherited fields)
  | binary position op left right =>
    exact inherited.binary position op left right (expr_all inherited left)
      (expr_all inherited right)
  | logical position op left right =>
    exact inherited.logical position op left right (expr_all inherited left)
      (expr_all inherited right)
  | unary position op operand =>
    exact inherited.unary position op operand (expr_all inherited operand)
  | step position side op operand =>
    exact inherited.step position side op operand (expr_all inherited operand)
  | assign position target value =>
    exact inherited.assign position target value (expr_all inherited target)
      (expr_all inherited value)
  | declare position flavour name value =>
    exact inherited.declare position flavour name value (expr_all inherited value)
  | call position callee arguments =>
    exact inherited.call position callee arguments (expr_all inherited callee)
      (expr_list inherited arguments)
  | member position subject key =>
    exact inherited.member position subject key (expr_all inherited subject)
  | index position subject key =>
    exact inherited.index position subject key (expr_all inherited subject)
      (expr_all inherited key)
  | ternary position test consequent alternate =>
    exact inherited.ternary position test consequent alternate (expr_all inherited test)
      (expr_all inherited consequent) (expr_all inherited alternate)
  | typeof position operand => exact inherited.typeof position operand (expr_all inherited operand)
  | function position name exported parameters body =>
    exact inherited.function position name exported parameters body
      (parameter_list inherited parameters) (stmt_list inherited body)
termination_by structural value

/-- What every node inherits from its parts holds of each of some expressions. -/
theorem expr_list
    (inherited : Inherited ofExpr ofField ofParameter ofStmt)
    (values : List Expr) :
    ∀ value ∈ values, ofExpr value := by
  cases values with
  | nil => exact fun _ mem => absurd mem List.not_mem_nil
  | cons value values =>
    exact List.forall_mem_cons.2 ⟨expr_all inherited value, expr_list inherited values⟩
termination_by structural values

/-- What every node inherits from its parts holds of a property. -/
theorem field_all
    (inherited : Inherited ofExpr ofField ofParameter ofStmt)
    (field : Field) :
    ofField field := by
  cases field with
  | mk key value => exact inherited.field key value (expr_all inherited value)
termination_by structural field

theorem field_list
    (inherited : Inherited ofExpr ofField ofParameter ofStmt)
    (fields : List Field) :
    ∀ field ∈ fields, ofField field := by
  cases fields with
  | nil => exact fun _ mem => absurd mem List.not_mem_nil
  | cons field fields =>
    exact List.forall_mem_cons.2 ⟨field_all inherited field, field_list inherited fields⟩
termination_by structural fields

/-- What every node inherits from its parts holds of a parameter. -/
theorem parameter_all
    (inherited : Inherited ofExpr ofField ofParameter ofStmt)
    (parameter : Parameter) :
    ofParameter parameter := by
  cases parameter with
  | required name => exact inherited.required name
  | optional name default => exact inherited.optional name default (expr_all inherited default)
termination_by structural parameter

theorem parameter_list
    (inherited : Inherited ofExpr ofField ofParameter ofStmt)
    (parameters : List Parameter) :
    ∀ parameter ∈ parameters, ofParameter parameter := by
  cases parameters with
  | nil => exact fun _ mem => absurd mem List.not_mem_nil
  | cons parameter parameters =>
    exact List.forall_mem_cons.2
      ⟨parameter_all inherited parameter, parameter_list inherited parameters⟩
termination_by structural parameters

/-- What every node inherits from its parts holds of the expression that a function called on the
spot returns. -/
theorem result_all
    (inherited : Inherited ofExpr ofField ofParameter ofStmt)
    (value : Expr)
    (callPosition functionPosition returnPosition : Position)
    (result : Expr)
    (same : value = .call callPosition (.function functionPosition none true []
      [.returnValue returnPosition result]) []) :
    ofExpr result := by
  cases value with
  | call position callee arguments =>
    cases callee with
    | function position name exported parameters body =>
      cases body with
      | nil => cases same
      | cons statement statements =>
        cases statement with
        | returnValue position returned =>
          have found := expr_all inherited returned
          cases same
          exact found
        | _ => cases same
    | _ => cases same
  | _ => cases same
termination_by structural value

/-- What every node inherits from its parts holds of the parameters and the body of a function. -/
theorem parts_all
    (inherited : Inherited ofExpr ofField ofParameter ofStmt)
    (value : Expr)
    (functionPosition : Position)
    (name : Option String)
    (parameters : List Parameter)
    (body : List Stmt)
    (same : value = .function functionPosition name true parameters body) :
    (∀ parameter ∈ parameters, ofParameter parameter) ∧ ∀ statement ∈ body, ofStmt statement := by
  cases value with
  | function position name exported parameters body =>
    have ofParameters := parameter_list inherited parameters
    have ofBody := stmt_list inherited body
    cases same
    exact ⟨ofParameters, ofBody⟩
  | _ => cases same
termination_by structural value

/-- What every node inherits from its parts holds of a statement. -/
theorem stmt_all
    (inherited : Inherited ofExpr ofField ofParameter ofStmt)
    (statement : Stmt) :
    ofStmt statement := by
  cases statement with
  | expr position value =>
    exact inherited.expr position value (expr_all inherited value) (result_all inherited value)
      (parts_all inherited value)
  | branch position test consequent alternate =>
    exact inherited.branch position test consequent alternate (expr_all inherited test)
      (stmt_list inherited consequent) (stmt_list inherited alternate)
  | whileLoop position test body =>
    exact inherited.whileLoop position test body (expr_all inherited test)
      (stmt_list inherited body)
  | forLoop position start test update body =>
    exact inherited.forLoop position start test update body (expr_all inherited start)
      (expr_all inherited test) (expr_all inherited update) (stmt_list inherited body)
  | returnValue position value =>
    exact inherited.returnValue position value (expr_all inherited value)
  | returnNothing position => exact inherited.returnNothing position
  | debug position values => exact inherited.debug position values (expr_list inherited values)
  | use position path => exact inherited.use position path
termination_by structural statement

/-- What every node inherits from its parts holds of each of some statements. -/
theorem stmt_list
    (inherited : Inherited ofExpr ofField ofParameter ofStmt)
    (statements : List Stmt) :
    ∀ statement ∈ statements, ofStmt statement := by
  cases statements with
  | nil => exact fun _ mem => absurd mem List.not_mem_nil
  | cons statement statements =>
    exact List.forall_mem_cons.2 ⟨stmt_all inherited statement, stmt_list inherited statements⟩
termination_by structural statements

end

end Inherited
end TinyScript
