import TinyScript.Grammar.Rules
import TinyScript.Token.Scanner

/-!
# Programs from tokens and from text

A program is read from the tokens before the first one that ends the source.
-/

namespace TinyScript
namespace Program

/-- The tokens before the first that ends the source. -/
def tokensAhead (tokens : List Token) : List Token :=
  tokens.takeWhile (·.kind != .eof)

/-- The token that ends the source: the first such, or one at the place of the last token. -/
def endToken (tokens : List Token) : Token :=
  (tokens.find? (·.kind == .eof)).getD
    { kind := .eof
      lexeme := ""
      position := (tokens.getLast?.map (·.position)).getD .start }

/-- The program that a list of tokens is. -/
def ofTokens (tokens : List Token) : Except Diagnostic Program :=
  let ahead := tokensAhead tokens
  let rules := Rules.upTo ahead.length
  (Rules.statements rules.statement (·.kind == .eof) (endToken tokens) ahead).map (·.1)

/-- The program that a text is; a diagnostic shows the line it speaks of. -/
def ofSource (source : String) : Except Diagnostic Program :=
  (Token.scan source >>= ofTokens).mapError (·.withSource source)

end Program
end TinyScript
