/-!
# Output

Everything that a program shows is kept in the order in which it was written.
-/

namespace TinyScript

/-- What has been written so far. -/
structure Output where
  /-- The text, from the first write on. -/
  text : String := ""
  deriving DecidableEq, Repr

namespace Output

/-- Adds a text at the end. -/
def write (output : Output) (text : String) : Output :=
  { text := output.text ++ text }

/-- Adds a text and a line feed at the end. -/
def writeLine (output : Output) (line : String) : Output :=
  output.write (line ++ "\n")

end Output
end TinyScript
