import TinyScript.Token.Scanner

/-!
# How tokens are written

A token is written as a slice of the source.  Which slice that is depends on the
text behind it: words, numbers and runs of operator characters are taken as long
as they go on.  Between two slices stands a gap of white space and comments.
-/

namespace TinyScript
namespace Token

open Scanner

/-- A numeral of the source: a digit, then digits with at most one point among or behind them. -/
def isNumeral : List Char → Bool
  | [] => false
  | c :: rest =>
      c.isDigit && rest.all (fun c => c.isDigit || c == '.') && decide (rest.count '.' ≤ 1)

/-- What stands between two quotes and the text that it stands for.  No quote of the literal's
own kind is in it but behind a backslash, and no backslash is left over at its end. -/
inductive Quoted (quote : Char) : (body text : List Char) → Prop
  | nil : Quoted quote [] []
  | escaped {body text : List Char} (c : Char) :
      Quoted quote body text → Quoted quote ('\\' :: c :: body) (unescape c :: text)
  | plain {body text : List Char} {c : Char} :
      c ≠ '\\' → c ≠ quote → Quoted quote body text → Quoted quote (c :: body) (c :: text)

/-- The slice that a token of a kind and a lexeme is written as, in front of the text beyond. -/
inductive Spelled : (kind : Kind) → (lexeme : String) → (slice beyond : List Char) → Prop
  | newline (beyond : List Char) : Spelled .newline "\n" ['\n'] beyond
  | mark (mark : Mark) (beyond : List Char) :
      Spelled (.mark mark) (String.singleton mark.spelling) [mark.spelling] beyond
  /-- A word does not go on. -/
  | word {word beyond : List Char} :
      Text.isWord word = true →
      (∀ c ∈ beyond.head?, Text.isWord (word ++ [c]) = false) →
      Spelled (wordKind (String.ofList word)) (String.ofList word) word beyond
  /-- A number does not go on, and takes at most one point. -/
  | number {digits beyond : List Char} :
      isNumeral digits = true →
      (∀ c ∈ beyond.head?, isNumeral (digits ++ [c]) = false) →
      Spelled (numberKind digits) (String.ofList digits) digits beyond
  /-- An operator of two characters is taken off a run whatever follows. -/
  | pair {pair : List Char} (beyond : List Char) :
      pair ∈ pairs →
      Spelled (operatorKind (String.ofList pair)) (String.ofList pair) pair beyond
  /-- A run that begins with no such operator is taken to its end. -/
  | run {run beyond : List Char} :
      run ≠ [] →
      (∀ c ∈ run, isOperatorChar c = true) →
      (∀ pair ∈ pairs, ¬ pair <+: run) →
      (∀ c ∈ beyond.head?, isOperatorChar c = false) →
      Spelled (operatorKind (String.ofList run)) (String.ofList run) run beyond
  /-- A string ends at the first quote of its kind that no backslash stands before. -/
  | string {quote : Char} {body text : List Char} (beyond : List Char) :
      quote = '"' ∨ quote = '\'' →
      Quoted quote body text →
      Spelled .string (String.ofList text) (quote :: (body ++ [quote])) beyond

/-- What stands between two tokens: white space other than line feeds, and comments, which last
until the line or the source ends. -/
inductive Gap : (gap beyond : List Char) → Prop
  | nil (beyond : List Char) : Gap [] beyond
  | blank {gap beyond : List Char} {c : Char} :
      Text.isBlank c = true → c ≠ '\n' → Gap gap beyond → Gap (c :: gap) beyond
  | comment {text beyond : List Char} :
      '\n' ∉ text → (beyond = [] ∨ beyond.head? = some '\n') → Gap ('#' :: text) beyond

/-- A text from a position on is cut into the slices of tokens and the gaps before them, and
ends in a gap before the token for its end. -/
inductive Tiling : Position → List Char → List Token → Prop
  | finish {position : Position} {gap : List Char} :
      Gap gap [] →
      Tiling position gap [{ kind := .eof, lexeme := "", position := position.afterAll gap }]
  | token {position : Position} {kind : Kind} {lexeme : String} {gap slice beyond : List Char}
      {tokens : List Token} :
      Gap gap (slice ++ beyond) →
      Spelled kind lexeme slice beyond →
      Tiling (position.afterAll (gap ++ slice)) beyond tokens →
      Tiling position (gap ++ (slice ++ beyond))
        ({ kind := kind, lexeme := lexeme, position := position.afterAll gap } :: tokens)

end Token
end TinyScript
