/-!
# Open brackets

The number of brackets that a text opens and does not close tells whether more
lines are needed before it can be a program.  Brackets in strings and comments
do not count.
-/

namespace TinyScript

/-- What a bracket count is in the middle of. -/
inductive Brackets.Mode
  | code
  | comment
  /-- In a string; `escaped` just after a backslash. -/
  | string (quote : Char) (escaped : Bool)
  deriving DecidableEq, Repr

/-- A count of brackets on its way through a text. -/
structure Brackets where
  /-- What the count is in the middle of. -/
  mode : Brackets.Mode
  /-- Opening brackets less closing ones so far. -/
  depth : Int
  deriving DecidableEq, Repr

namespace Brackets

/-- The count before the first character. -/
def initial : Brackets :=
  { mode := .code, depth := 0 }

/-- The count behind one more character. -/
def read (brackets : Brackets) (c : Char) : Brackets :=
  match brackets.mode with
  | .string quote escaped =>
    if escaped then { brackets with mode := .string quote false }
    else if c = '\\' then { brackets with mode := .string quote true }
    else if c = quote then { brackets with mode := .code }
    else brackets
  | .comment => if c = '\n' then { brackets with mode := .code } else brackets
  | .code =>
    if c = '"' ∨ c = '\'' then { brackets with mode := .string c false }
    else if c = '#' then { brackets with mode := .comment }
    else if c = '(' ∨ c = '[' ∨ c = '\x7b' then { brackets with depth := brackets.depth + 1 }
    else if c = ')' ∨ c = ']' ∨ c = '\x7d' then { brackets with depth := brackets.depth - 1 }
    else brackets

/-- Opening brackets less closing ones in a whole text. -/
def depthOf (text : String) : Int :=
  (text.toList.foldl read initial).depth

end Brackets
end TinyScript
