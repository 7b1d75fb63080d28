import TinyScript.Syntax

/-!
# Static nesting

The static depth of a node is the number of function bodies and `for` statements
around it.  The start, the test and the update of a `for` statement are inside it; the
default of a parameter is outside its function.
-/

namespace TinyScript

/-- A node of a program.  A function is one besides the expression that makes it, and so is its
body, since there may be no statement in it. -/
inductive Node
  | expr (value : Expr)
  | stmt (statement : Stmt)
  | function (value : Function)
  | body (statements : List Stmt)

/-- A node is a direct part of another one, as deep as that. -/
inductive Node.Part : Node → Node → Prop
  | item {position items item} : item ∈ items →
      Part (.expr (.array position items)) (.expr item)
  | property {position fields key value} : Field.mk key value ∈ fields →
      Part (.expr (.object position fields)) (.expr value)
  | binaryLeft {position op left right} :
      Part (.expr (.binary position op left right)) (.expr left)
  | binaryRight {position op left right} :
      Part (.expr (.binary position op left right)) (.expr right)
  | logicalLeft {position op left right} :
      Part (.expr (.logical position op left right)) (.expr left)
  | logicalRight {position op left right} :
      Part (.expr (.logical position op left right)) (.expr right)
  | unary {position op operand} : Part (.expr (.unary position op operand)) (.expr operand)
  | step {position side op operand} :
      Part (.expr (.step position side op operand)) (.expr operand)
  | target {position target value} : Part (.expr (.assign position target value)) (.expr target)
  | assigned {position target value} : Part (.expr (.assign position target value)) (.expr value)
  | declared {position flavour name value} :
      Part (.expr (.declare position flavour name value)) (.expr value)
  | callee {position callee arguments} :
      Part (.expr (.call position callee arguments)) (.expr callee)
  | argument {position callee arguments argument} : argument ∈ arguments →
      Part (.expr (.call position callee arguments)) (.expr argument)
  | member {position subject key} : Part (.expr (.member position subject key)) (.expr subject)
  | indexed {position subject key} : Part (.expr (.index position subject key)) (.expr subject)
  | key {position subject key} : Part (.expr (.index position subject key)) (.expr key)
  | test {position test consequent alternate} :
      Part (.expr (.ternary position test consequent alternate)) (.expr test)
  | consequent {position test consequent alternate} :
      Part (.expr (.ternary position test consequent alternate)) (.expr consequent)
  | alternate {position test consequent alternate} :
      Part (.expr (.ternary position test consequent alternate)) (.expr alternate)
  | typeof {position operand} : Part (.expr (.typeof position operand)) (.expr operand)
  | function {position name exported parameters body} :
      Part (.expr (.function position name exported parameters body))
        (.function
          { name := name, exported := exported, parameters := parameters, body := body })
  | default {function parameter default} :
      Parameter.optional parameter default ∈ function.parameters →
      Part (.function function) (.expr default)
  | value {position value} : Part (.stmt (.expr position value)) (.expr value)
  | branchTest {position test consequent alternate} :
      Part (.stmt (.branch position test consequent alternate)) (.expr test)
  | branchThen {position test consequent alternate statement} : statement ∈ consequent →
      Part (.stmt (.branch position test consequent alternate)) (.stmt statement)
  | branchElse {position test consequent alternate statement} : statement ∈ alternate →
      Part (.stmt (.branch position test consequent alternate)) (.stmt statement)
  | whileTest {position test body} : Part (.stmt (.whileLoop position test body)) (.expr test)
  | whileBody {position test body statement} : statement ∈ body →
      Part (.stmt (.whileLoop position test body)) (.stmt statement)
  | returned {position value} : Part (.stmt (.returnValue position value)) (.expr value)
  | shown {position values value} : value ∈ values →
      Part (.stmt (.debug position values)) (.expr value)
  | statement {statements statement} : statement ∈ statements →
      Part (.body statements) (.stmt statement)

/-- A node is a direct part of another one, and one deeper: it is the body of a function, or in a
`for` statement. -/
inductive Node.Inside : Node → Node → Prop
  | body {function} : Inside (.function function) (.body function.body)
  | start {position start test update body} :
      Inside (.stmt (.forLoop position start test update body)) (.expr start)
  | test {position start test update body} :
      Inside (.stmt (.forLoop position start test update body)) (.expr test)
  | update {position start test update body} :
      Inside (.stmt (.forLoop position start test update body)) (.expr update)
  | statement {position start test update body statement} : statement ∈ body →
      Inside (.stmt (.forLoop position start test update body)) (.stmt statement)

/-- A node stands in a program at a static depth. -/
inductive Program.Occurs (program : Program) : Nat → Node → Prop
  | statement {statement} : statement ∈ program → Occurs program 0 (.stmt statement)
  | part {depth whole part} : Occurs program depth whole → Node.Part whole part →
      Occurs program depth part
  | inside {depth whole part} : Occurs program depth whole → Node.Inside whole part →
      Occurs program (depth + 1) part

end TinyScript
