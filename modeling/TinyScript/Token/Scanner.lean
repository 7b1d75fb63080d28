import TinyScript.Diagnostic
import TinyScript.Text.Blank
import TinyScript.Text.Word
import TinyScript.Token

/-!
# Scanning

A scanner reads a source one character at a time.  Between two characters it
knows the place it has reached, the tokens completed so far and what it is in
the middle of; nothing else of the text read carries over.

A word, a number and a run of operator characters end at the first character
that cannot belong to them, and that character is then read afresh.
-/

namespace TinyScript

/-- What a scanner is in the middle of.  Texts are kept with the latest character first. -/
inductive Scanner.Mode
  /-- Between two tokens. -/
  | between
  /-- In a comment, which lasts until the line ends. -/
  | comment
  | word (start : Position) (letters : List Char)
  | number (start : Position) (digits : List Char)
  | operator (start : Position) (signs : List Char)
  /-- In a string; `escaped` just after a backslash. -/
  | string (start : Position) (quote : Char) (text : List Char) (escaped : Bool)
  deriving DecidableEq, Repr

/-- The state of a scanner between two characters. -/
structure Scanner where
  /-- What the scanner is in the middle of. -/
  mode : Scanner.Mode
  /-- The place it has reached. -/
  position : Position
  /-- The tokens it has completed, the latest first. -/
  tokens : List Token
  deriving Repr

namespace Scanner

/-- A scanner before the first character. -/
def initial : Scanner :=
  { mode := .between, position := .start, tokens := [] }

/-- A character that continues a number: a digit, or its first point. -/
def continuesNumber (digits : List Char) (c : Char) : Bool :=
  c.isDigit || c == '.' && !digits.contains '.'

/-- A character of operators. -/
def isOperatorChar (c : Char) : Bool :=
  "+-*/%=<>!&|^".toList.contains c

/-- The operators of two characters.  A run of operator characters is cut behind one. -/
def pairs : List (List Char) :=
  [['=', '='], ['!', '='], ['<', '='], ['>', '='], ['&', '&'], ['|', '|'], ['+', '+'],
    ['-', '-'], ['+', '='], ['-', '='], ['*', '='], ['/', '='], ['*', '*']]

/-- Whether a run of operator characters, the latest first, makes up one of the pairs with one more
character. -/
def completesPair (signs : List Char) (c : Char) : Bool :=
  match signs with
  | [first] => pairs.contains [first, c]
  | _ => false

/-- The character that a backslash and a character stand for in a string. -/
def unescape : Char → Char
  | 'n' => '\n'
  | 't' => '\t'
  | 'r' => '\r'
  | c => c

/-- A word is a keyword or else a name. -/
def wordKind (word : String) : Token.Kind :=
  match Keyword.ofSpelling? word with
  | some keyword => .keyword keyword
  | none => .identifier

/-- A number with a point is a float, one without an integer. -/
def numberKind (digits : List Char) : Token.Kind :=
  if digits.contains '.' then .float else .int

/-- An operator without a kind of its own is known by its text. -/
def operatorKind (text : String) : Token.Kind :=
  match Sign.ofSpelling? text with
  | some sign => .sign sign
  | none => .operator

/-- The scanner with one more token, and nothing begun. -/
def emit (scanner : Scanner) (kind : Token.Kind) (lexeme : String) (start : Position) : Scanner :=
  { scanner with
    mode := .between
    tokens := { kind := kind, lexeme := lexeme, position := start } :: scanner.tokens }

/-- The scanner with the word, number or operator that it is in the middle of completed. -/
def complete (scanner : Scanner) : Scanner :=
  match scanner.mode with
  | .word start letters =>
    let word := String.ofList letters.reverse
    scanner.emit (wordKind word) word start
  | .number start digits =>
    scanner.emit (numberKind digits) (String.ofList digits.reverse) start
  | .operator start signs =>
    let text := String.ofList signs.reverse
    scanner.emit (operatorKind text) text start
  | _ => scanner

/-- The scanner one character further on, in a given mode. -/
def advance (scanner : Scanner) (c : Char) (mode : Mode) : Scanner :=
  { scanner with mode := mode, position := scanner.position.after c }

/-- Reads a character between two tokens. -/
def readFresh (scanner : Scanner) (c : Char) : Except Diagnostic Scanner :=
  let start := scanner.position
  let beyond := scanner.advance c .between
  if c = '\n' then
    .ok (beyond.emit .newline (String.singleton c) start)
  else if Text.isBlank c then
    .ok beyond
  else if c = '#' then
    .ok (scanner.advance c .comment)
  else if c = '"' ∨ c = '\'' then
    .ok (scanner.advance c (.string start c [] false))
  else if c.isDigit then
    .ok (scanner.advance c (.number start [c]))
  else if Text.beginsWord c then
    .ok (scanner.advance c (.word start [c]))
  else if isOperatorChar c then
    .ok (scanner.advance c (.operator start [c]))
  else
    match Mark.ofSpelling? c with
    | some mark => .ok (beyond.emit (.mark mark) (String.singleton c) start)
    | none =>
      let message := "unexpected character `" ++ String.singleton c ++ "`"
      .error (({ stage := .lexer, message := message } : Diagnostic).withPosition start)

/-- Reads one character. -/
def read (scanner : Scanner) (c : Char) : Except Diagnostic Scanner :=
  match scanner.mode with
  | .between => scanner.readFresh c
  | .comment =>
    if c = '\n' then ({ scanner with mode := .between } : Scanner).readFresh c
    else .ok (scanner.advance c .comment)
  | .word start letters =>
    if Text.continuesWord c then .ok (scanner.advance c (.word start (c :: letters)))
    else scanner.complete.readFresh c
  | .number start digits =>
    if continuesNumber digits c then .ok (scanner.advance c (.number start (c :: digits)))
    else scanner.complete.readFresh c
  | .operator start signs =>
    if isOperatorChar c then
      let longer := scanner.advance c (.operator start (c :: signs))
      if completesPair signs c then .ok longer.complete else .ok longer
    else scanner.complete.readFresh c
  | .string start quote text escaped =>
    if escaped then
      .ok (scanner.advance c (.string start quote (unescape c :: text) false))
    else if c = '\\' then
      .ok (scanner.advance c (.string start quote text true))
    else if c = quote then
      .ok ((scanner.advance c .between).emit .string (String.ofList text.reverse) start)
    else
      .ok (scanner.advance c (.string start quote (c :: text) false))

/-- Reads a text from front to back and stops at the first character that no token can hold. -/
def readAll (scanner : Scanner) (text : List Char) : Except Diagnostic Scanner :=
  text.foldlM read scanner

/-- Nothing but its state carries a scanner over from one part of a text to the next. -/
theorem readAll_append (scanner : Scanner) (text more : List Char) :
    scanner.readAll (text ++ more) = scanner.readAll text >>= fun next => next.readAll more :=
  List.foldlM_append

/-- Ends the source: a string must have been closed, and the last token says where the end is. -/
def finish (scanner : Scanner) : Except Diagnostic (List Token) :=
  match scanner.mode with
  | .string start .. =>
    .error
      (({ stage := .lexer, message := "unterminated string" } : Diagnostic).withPosition start)
  | _ => .ok (scanner.complete.emit .eof "" scanner.position).tokens.reverse

end Scanner

/-- The tokens of a source, in order, ending in the one token for its end. -/
def Token.scan (source : String) : Except Diagnostic (List Token) := do
  let scanner ← Scanner.initial.readAll source.toList
  scanner.finish

end TinyScript
