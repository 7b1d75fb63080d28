import TinyScript.Proofs.Syntax.Nesting

/-!
# Tests on every expression

A test that is passed by every expression in a node is passed by every one in its parts.
-/

namespace TinyScript

mutual

/-- Every expression in an expression passes a test, itself as well. -/
def Expr.everywhere (test : Expr → Bool) : Expr → Bool
  | .array position items => test (.array position items) && Expr.allEverywhere test items
  | .object position fields => test (.object position fields) && Field.allEverywhere test fields
  | .binary position op left right =>
    test (.binary position op left right) && left.everywhere test && right.everywhere test
  | .logical position op left right =>
    test (.logical position op left right) && left.everywhere test && right.everywhere test
  | .unary position op operand => test (.unary position op operand) && operand.everywhere test
  | .step position side op operand =>
    test (.step position side op operand) && operand.everywhere test
  | .assign position target value =>
    test (.assign position target value) && target.everywhere test && value.everywhere test
  | .declare position flavour name value =>
    test (.declare position flavour name value) && value.everywhere test
  | .call position callee arguments =>
    test (.call position callee arguments) && callee.everywhere test &&
      Expr.allEverywhere test arguments
  | .member position subject key =>
    test (.member position subject key) && subject.everywhere test
  | .index position subject key =>
    test (.index position subject key) && subject.everywhere test && key.everywhere test
  | .ternary position condition consequent alternate =>
    test (.ternary position condition consequent alternate) && condition.everywhere test &&
      consequent.everywhere test && alternate.everywhere test
  | .typeof position operand => test (.typeof position operand) && operand.everywhere test
  | .function position name exported parameters body =>
    test (.function position name exported parameters body) &&
      Parameter.allEverywhere test parameters && Stmt.allEverywhere test body
  | expr => test expr

def Expr.allEverywhere (test : Expr → Bool) : List Expr → Bool
  | [] => true
  | expr :: exprs => expr.everywhere test && Expr.allEverywhere test exprs

def Field.allEverywhere (test : Expr → Bool) : List Field → Bool
  | [] => true
  | .mk _ value :: fields => value.everywhere test && Field.allEverywhere test fields

def Parameter.allEverywhere (test : Expr → Bool) : List Parameter → Bool
  | [] => true
  | .required _ :: parameters => Parameter.allEverywhere test parameters
  | .optional _ default :: parameters =>
    default.everywhere test && Parameter.allEverywhere test parameters

/-- Every expression in a statement passes a test. -/
def Stmt.everywhere (test : Expr → Bool) : Stmt → Bool
  | .expr _ value => value.everywhere test
  | .branch _ condition consequent alternate =>
    condition.everywhere test && Stmt.allEverywhere test consequent &&
      Stmt.allEverywhere test alternate
  | .whileLoop _ condition body => condition.everywhere test && Stmt.allEverywhere test body
  | .forLoop _ start condition update body =>
    start.everywhere test && condition.everywhere test && update.everywhere test &&
      Stmt.allEverywhere test body
  | .returnValue _ value => value.everywhere test
  | .returnNothing _ => true
  | .debug _ values => Expr.allEverywhere test values
  | .use _ _ => true

def Stmt.allEverywhere (test : Expr → Bool) : List Stmt → Bool
  | [] => true
  | statement :: statements => statement.everywhere test && Stmt.allEverywhere test statements

end

/-- Every expression in a node passes a test. -/
def Node.everywhere (test : Expr → Bool) : Node → Bool
  | .expr value => value.everywhere test
  | .stmt statement => statement.everywhere test
  | .function value =>
    Parameter.allEverywhere test value.parameters && Stmt.allEverywhere test value.body
  | .body statements => Stmt.allEverywhere test statements

variable {test : Expr → Bool}

/-- Code in one of some expressions passes the test that all code in them passes. -/
theorem Expr.everywhere_of_mem
    {exprs : List Expr}
    (passes : Expr.allEverywhere test exprs = true)
    {expr : Expr}
    (mem : expr ∈ exprs) :
    expr.everywhere test = true := by
  induction exprs with
  | nil => cases mem
  | cons first rest ih =>
    rw [Expr.allEverywhere, Bool.and_eq_true] at passes
    rcases List.mem_cons.1 mem with rfl | mem
    · exact passes.1
    · exact ih passes.2 mem

/-- Code in the value of a property passes the test that all code in the properties passes. -/
theorem Field.everywhere_of_mem
    {fields : List Field}
    (passes : Field.allEverywhere test fields = true)
    {key : String}
    {value : Expr}
    (mem : Field.mk key value ∈ fields) :
    value.everywhere test = true := by
  induction fields with
  | nil => cases mem
  | cons first rest ih =>
    obtain ⟨firstKey, firstValue⟩ := first
    rw [Field.allEverywhere, Bool.and_eq_true] at passes
    rcases List.mem_cons.1 mem with same | mem
    · cases same
      exact passes.1
    · exact ih passes.2 mem

/-- Code in a default passes the test that all code in the parameters passes. -/
theorem Parameter.everywhere_of_mem
    {parameters : List Parameter}
    (passes : Parameter.allEverywhere test parameters = true)
    {name : String}
    {default : Expr}
    (mem : Parameter.optional name default ∈ parameters) :
    default.everywhere test = true := by
  induction parameters with
  | nil => cases mem
  | cons first rest ih =>
    cases first with
    | required firstName =>
      exact ih passes ((List.mem_cons.1 mem).resolve_left (by simp))
    | optional firstName firstDefault =>
      rw [Parameter.allEverywhere, Bool.and_eq_true] at passes
      rcases List.mem_cons.1 mem with same | mem
      · cases same
        exact passes.1
      · exact ih passes.2 mem

/-- Code in one of some statements passes the test that all code in them passes. -/
theorem Stmt.everywhere_of_mem
    {statements : List Stmt}
    (passes : Stmt.allEverywhere test statements = true)
    {statement : Stmt}
    (mem : statement ∈ statements) :
    statement.everywhere test = true := by
  induction statements with
  | nil => cases mem
  | cons first rest ih =>
    rw [Stmt.allEverywhere, Bool.and_eq_true] at passes
    rcases List.mem_cons.1 mem with rfl | mem
    · exact passes.1
    · exact ih passes.2 mem

namespace Node

/-- An expression passes the test that all code in it passes. -/
theorem passes_of_everywhere
    {expr : Expr}
    (passes : (Node.expr expr).everywhere test = true) :
    test expr = true := by
  cases expr <;>
    simp only [everywhere, Expr.everywhere, Bool.and_eq_true] at passes <;>
    first | exact passes | exact passes.1 | exact passes.1.1 | exact passes.1.1.1

/-- Code in a direct part passes the test that all code in the whole passes. -/
theorem everywhere_part
    {whole part : Node}
    (passes : whole.everywhere test = true)
    (isPart : Part whole part) :
    part.everywhere test = true := by
  cases isPart with
  | item mem =>
    simp only [everywhere, Expr.everywhere, Bool.and_eq_true] at passes
    exact Expr.everywhere_of_mem passes.2 mem
  | property mem =>
    simp only [everywhere, Expr.everywhere, Bool.and_eq_true] at passes
    exact Field.everywhere_of_mem passes.2 mem
  | argument mem =>
    simp only [everywhere, Expr.everywhere, Bool.and_eq_true] at passes
    exact Expr.everywhere_of_mem passes.2 mem
  | function =>
    simp only [everywhere, Expr.everywhere, Bool.and_eq_true] at passes ⊢
    exact ⟨passes.1.2, passes.2⟩
  | default mem =>
    simp only [everywhere, Bool.and_eq_true] at passes
    exact Parameter.everywhere_of_mem passes.1 mem
  | branchThen mem =>
    simp only [everywhere, Stmt.everywhere, Bool.and_eq_true] at passes
    exact Stmt.everywhere_of_mem passes.1.2 mem
  | branchElse mem =>
    simp only [everywhere, Stmt.everywhere, Bool.and_eq_true] at passes
    exact Stmt.everywhere_of_mem passes.2 mem
  | whileBody mem =>
    simp only [everywhere, Stmt.everywhere, Bool.and_eq_true] at passes
    exact Stmt.everywhere_of_mem passes.2 mem
  | shown mem => exact Expr.everywhere_of_mem passes mem
  | statement mem => exact Stmt.everywhere_of_mem passes mem
  | _ =>
    simp only [everywhere, Expr.everywhere, Stmt.everywhere, Bool.and_eq_true] at passes
    simp only [everywhere, passes]

/-- Code inside a function or loop passes the test that all code in the whole passes. -/
theorem everywhere_inside
    {whole part : Node}
    (passes : whole.everywhere test = true)
    (isInside : Inside whole part) :
    part.everywhere test = true := by
  cases isInside with
  | statement mem =>
    simp only [everywhere, Stmt.everywhere, Bool.and_eq_true] at passes
    exact Stmt.everywhere_of_mem passes.2 mem
  | _ =>
    simp only [everywhere, Stmt.everywhere, Bool.and_eq_true] at passes
    simp only [everywhere, passes]

end Node
end TinyScript
