import Mathlib.Logic.Relation
import TinyScript.Proofs.Syntax.Nesting

/-!
# The parts of a node in source order

`Node.parts` lists the direct parts of a node as its tree orders them, and `Node.Contains` follows
direct parts any number of times.  What holds of a node and throughout each of its parts holds
throughout the node (`Node.Throughout.of_parts`).
-/

namespace TinyScript

/-- The position of a statement. -/
def Stmt.position : Stmt → Position
  | .expr position _ | .branch position _ _ _ | .whileLoop position _ _
  | .forLoop position _ _ _ _ | .returnValue position _ | .returnNothing position
  | .debug position _ | .use position _ => position

/-- The value of a property. -/
def Field.value : Field → Expr
  | .mk _ value => value

namespace Node

/-- Where a node starts.  A function has its position in the expression that makes it, and a body
is where its statements are. -/
def position? : Node → Option Position
  | .expr value => some value.position
  | .stmt statement => some statement.position
  | .function _ | .body _ => none

@[simp] theorem position?_expr
    (value : Expr) :
    position? (.expr value) = some value.position :=
  rfl

@[simp] theorem position?_stmt
    (statement : Stmt) :
    position? (.stmt statement) = some statement.position :=
  rfl

/-- The part that a parameter is to its function: its default, if it has one. -/
def ofParameter : Parameter → List Node
  | .required _ => []
  | .optional _ default => [.expr default]

/-- The direct parts of a node, in the order in which the source has them. -/
def parts : Node → List Node
  | .expr (.array _ items) => items.map .expr
  | .expr (.object _ fields) => fields.map (.expr ·.value)
  | .expr (.binary _ _ left right) | .expr (.logical _ _ left right) => [.expr left, .expr right]
  | .expr (.unary _ _ operand) | .expr (.step _ _ _ operand) | .expr (.typeof _ operand) =>
    [.expr operand]
  | .expr (.assign _ target value) => [.expr target, .expr value]
  | .expr (.declare _ _ _ value) => [.expr value]
  | .expr (.call _ callee arguments) => .expr callee :: arguments.map .expr
  | .expr (.member _ subject _) => [.expr subject]
  | .expr (.index _ subject key) => [.expr subject, .expr key]
  | .expr (.ternary _ test consequent alternate) =>
    [.expr test, .expr consequent, .expr alternate]
  | .expr (.function _ name exported parameters statements) =>
    [.function
      { name := name, exported := exported, parameters := parameters, body := statements }]
  | .expr _ => []
  | .function value => value.parameters.flatMap ofParameter ++ [.body value.body]
  | .body statements => statements.map .stmt
  | .stmt (.expr _ value) | .stmt (.returnValue _ value) => [.expr value]
  | .stmt (.branch _ test consequent alternate) =>
    .expr test :: (consequent.map .stmt ++ alternate.map .stmt)
  | .stmt (.whileLoop _ test statements) => .expr test :: statements.map .stmt
  | .stmt (.forLoop _ start test update statements) =>
    .expr start :: .expr test :: .expr update :: statements.map .stmt
  | .stmt (.debug _ values) => values.map .expr
  | .stmt (.returnNothing _) | .stmt (.use _ _) => []

/-- A node is a direct part of another one, as deep as that or one deeper. -/
def Child (whole part : Node) : Prop :=
  Part whole part ∨ Inside whole part

/-- A node is another one, or stands in it at any depth. -/
def Contains : Node → Node → Prop :=
  Relation.ReflTransGen Child

/-- The child of a node is one of its parts. -/
theorem Child.mem_parts
    {whole part : Node}
    (child : Child whole part) :
    part ∈ whole.parts := by
  rcases child with isPart | isInside
  · cases isPart with
    | property isIn => exact List.mem_map.2 ⟨_, isIn, rfl⟩
    | default isIn =>
      exact List.mem_append_left _ (List.mem_flatMap.2 ⟨_, isIn, List.mem_singleton.2 rfl⟩)
    | _ => simp_all [parts]
  · cases isInside <;> simp_all [parts]

/-! ## Lists of items -/

/-- Where the items of each list of a node start: the elements of an array, the values of an
object, the arguments of a call, the statements of a body, and the values that are shown. -/
def rows : Node → List (List Position)
  | .expr (.array _ items) => [items.map Expr.position]
  | .expr (.object _ fields) => [fields.map (·.value.position)]
  | .expr (.call _ _ arguments) => [arguments.map Expr.position]
  | .body statements => [statements.map Stmt.position]
  | .stmt (.branch _ _ consequent alternate) =>
    [consequent.map Stmt.position, alternate.map Stmt.position]
  | .stmt (.whileLoop _ _ statements) | .stmt (.forLoop _ _ _ _ statements) =>
    [statements.map Stmt.position]
  | .stmt (.debug _ values) => [values.map Expr.position]
  | _ => []

/-- The items of a list are parts of the node, in the same order. -/
theorem rows_sublist
    {node : Node}
    {row : List Position}
    (isRow : row ∈ node.rows) :
    row.Sublist (node.parts.filterMap position?) := by
  unfold rows at isRow
  split at isRow <;> simp only [List.mem_cons, List.not_mem_nil, or_false] at isRow
  case h_5 =>
    rcases isRow with rfl | rfl <;> simp only [parts, List.filterMap_cons, List.filterMap_append,
      List.filterMap_map, Function.comp_def, position?_expr, position?_stmt, List.filterMap_eq_map']
    · exact .cons _ (List.sublist_append_left ..)
    · exact .cons _ (List.sublist_append_right ..)
  case h_7 =>
    subst isRow
    simp only [parts, List.filterMap_cons, List.filterMap_map, Function.comp_def, position?_expr,
      position?_stmt, List.filterMap_eq_map']
    exact .cons _ (.cons _ (.cons _ (.refl _)))
  all_goals simp [parts, List.filterMap_map, Function.comp_def, isRow]

/-! ## Leftmost operands -/

/-- The operand that a node begins with: what an operator, an access or a call stands behind. -/
def leftmost? : Node → Option Expr
  | .expr (.binary _ _ left _) | .expr (.logical _ _ left _) => some left
  | .expr (.ternary _ test _ _) => some test
  | .expr (.assign _ target _) => some target
  | .expr (.call _ callee _) => some callee
  | .expr (.member _ subject _) | .expr (.index _ subject _) => some subject
  | .expr (.step _ .behind _ operand) => some operand
  | _ => none

/-- The name that a node declares. -/
def declared? : Node → Option String
  | .expr (.declare _ _ name _) => some name
  | _ => none

/-! ## What holds all through a node -/

/-- A property holds of a node and of all that stands in it. -/
def Throughout (Holds : Node → Prop) (node : Node) : Prop :=
  ∀ inner, node.Contains inner → Holds inner

variable {Holds : Node → Prop} {node : Node}

/-- What holds throughout a node holds of the node. -/
theorem Throughout.here
    (all : node.Throughout Holds) :
    Holds node :=
  all node .refl

/-- What holds throughout a node may be weakened everywhere. -/
theorem Throughout.mono
    {Weaker : Node → Prop}
    (weaken : ∀ {inner}, Holds inner → Weaker inner)
    (all : node.Throughout Holds) :
    node.Throughout Weaker :=
  fun inner contained => weaken (all inner contained)

/-- What a node contains is itself or in one of its parts. -/
theorem Contains.eq_or_mem_parts
    {inner : Node}
    (contained : node.Contains inner) :
    node = inner ∨ ∃ part ∈ node.parts, part.Contains inner :=
  (Relation.ReflTransGen.cases_head contained).imp_right fun ⟨part, child, rest⟩ =>
    ⟨part, child.mem_parts, rest⟩

/-- What holds of a node and throughout its parts holds throughout it. -/
theorem Throughout.of_parts
    (here : Holds node)
    (parts : ∀ part ∈ node.parts, part.Throughout Holds) :
    node.Throughout Holds := by
  intro inner contained
  rcases contained.eq_or_mem_parts with rfl | ⟨part, isPart, rest⟩
  · exact here
  · exact parts part isPart inner rest

end Node
end TinyScript
