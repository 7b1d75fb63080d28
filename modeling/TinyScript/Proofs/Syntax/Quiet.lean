import TinyScript.Proofs.Syntax.Everywhere

/-!
# Code that binds no name

A quiet expression binds no name in the scope that it is evaluated in: it has no assignment to a
name, no declaration and no function with a name.  What is in the functions that it makes does
not count, since that runs in scopes of its own.
-/

namespace TinyScript

mutual

/-- An expression has no assignment to a name, no declaration and no function with a name, but for
those in functions. -/
def Expr.isQuiet : Expr → Bool
  | .array _ items => Expr.areQuiet items
  | .object _ fields => Field.areQuiet fields
  | .binary _ _ left right => left.isQuiet && right.isQuiet
  | .logical _ _ left right => left.isQuiet && right.isQuiet
  | .unary _ _ operand => operand.isQuiet
  | .step _ _ _ operand => operand.isQuiet
  | .assign _ (.name _ _) _ => false
  | .assign _ target value => target.isQuiet && value.isQuiet
  | .declare _ _ _ _ => false
  | .call _ callee arguments => callee.isQuiet && Expr.areQuiet arguments
  | .member _ subject _ => subject.isQuiet
  | .index _ subject key => subject.isQuiet && key.isQuiet
  | .ternary _ test consequent alternate =>
    test.isQuiet && consequent.isQuiet && alternate.isQuiet
  | .typeof _ operand => operand.isQuiet
  | .function _ name _ _ _ => name.isNone
  | _ => true

def Expr.areQuiet : List Expr → Bool
  | [] => true
  | expr :: exprs => expr.isQuiet && Expr.areQuiet exprs

def Field.areQuiet : List Field → Bool
  | [] => true
  | .mk _ value :: fields => value.isQuiet && Field.areQuiet fields

end

/-- The default of a parameter is quiet, if there is one. -/
def Parameter.isQuiet : Parameter → Bool
  | .required _ => true
  | .optional _ default => default.isQuiet

/-- If an expression is a function, the defaults of its parameters are quiet. -/
def Expr.hasQuietDefaults : Expr → Bool
  | .function _ _ _ parameters _ => parameters.all Parameter.isQuiet
  | _ => true

/-- Each of some expressions that are quiet is. -/
theorem Expr.isQuiet_of_mem
    {exprs : List Expr}
    (quiet : Expr.areQuiet exprs = true)
    {expr : Expr}
    (mem : expr ∈ exprs) :
    expr.isQuiet = true := by
  induction exprs with
  | nil => cases mem
  | cons first rest ih =>
    rw [Expr.areQuiet, Bool.and_eq_true] at quiet
    rcases List.mem_cons.1 mem with rfl | mem
    · exact quiet.1
    · exact ih quiet.2 mem

/-- The value of each of some properties that are quiet is. -/
theorem Field.isQuiet_of_mem
    {fields : List Field}
    (quiet : Field.areQuiet fields = true)
    {key : String}
    {value : Expr}
    (mem : Field.mk key value ∈ fields) :
    value.isQuiet = true := by
  induction fields with
  | nil => cases mem
  | cons first rest ih =>
    obtain ⟨firstKey, firstValue⟩ := first
    rw [Field.areQuiet, Bool.and_eq_true] at quiet
    rcases List.mem_cons.1 mem with same | mem
    · cases same
      exact quiet.1
    · exact ih quiet.2 mem

/-- Both sides of an assignment that is quiet are. -/
theorem Expr.isQuiet_of_assign
    {position : Position}
    {target value : Expr}
    (quiet : (Expr.assign position target value).isQuiet = true) :
    target.isQuiet = true ∧ value.isQuiet = true := by
  cases target with
  | name namePosition name => cases quiet
  | _ => simpa only [Expr.isQuiet, Bool.and_eq_true] using quiet

namespace Node

/-- Code binds no name in the scope that it is run in, a loop because it makes a scope of its own.
Whatever has a name to bind is not quiet, nor is the body of a function. -/
def isQuiet : Node → Bool
  | .expr value => value.isQuiet
  | .stmt (.forLoop _ _ _ _ _) => true
  | .stmt _ => false
  | .function _ => true
  | .body _ => false

/-- The defaults in a node are quiet, and so are those of the function that it may be. -/
def HasQuietDefaults (node : Node) : Prop :=
  node.everywhere Expr.hasQuietDefaults = true ∧
    ∀ function, node = .function function → function.parameters.all Parameter.isQuiet = true

namespace HasQuietDefaults

/-- A direct part of code with quiet defaults has them as well. -/
theorem part
    {whole part : Node}
    (tidy : whole.HasQuietDefaults)
    (isPart : Part whole part) :
    part.HasQuietDefaults := by
  refine ⟨everywhere_part tidy.1 isPart, ?_⟩
  rintro function rfl
  cases isPart with
  | function => exact passes_of_everywhere tidy.1

/-- The inside of a function or loop with quiet defaults has them as well. -/
theorem inside
    {whole part : Node}
    (tidy : whole.HasQuietDefaults)
    (isInside : Inside whole part) :
    part.HasQuietDefaults := by
  refine ⟨everywhere_inside tidy.1 isInside, ?_⟩
  rintro function rfl
  cases isInside

/-- Whatever runs in the scope of quiet code is quiet. -/
theorem isQuiet_part
    {whole part : Node}
    (tidy : whole.HasQuietDefaults)
    (quiet : whole.isQuiet = true)
    (isPart : Part whole part) :
    part.isQuiet = true := by
  cases isPart with
  | item mem => exact Expr.isQuiet_of_mem quiet mem
  | property mem => exact Field.isQuiet_of_mem quiet mem
  | argument mem =>
    simp only [isQuiet, Expr.isQuiet, Bool.and_eq_true] at quiet
    exact Expr.isQuiet_of_mem quiet.2 mem
  | target => exact (Expr.isQuiet_of_assign quiet).1
  | assigned => exact (Expr.isQuiet_of_assign quiet).2
  | function => rfl
  | default mem => exact List.all_eq_true.1 (tidy.2 _ rfl) _ mem
  | _ => simp_all [isQuiet, Expr.isQuiet]

end HasQuietDefaults
end Node
end TinyScript
