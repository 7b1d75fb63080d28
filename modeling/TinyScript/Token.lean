import TinyScript.Position

/-!
# Tokens

A token is a piece of source text that the grammar treats as one symbol.  Its
kind says what the grammar may do with it, its lexeme is the text itself, and
for a string the text that the string stands for.
-/

namespace TinyScript

/-- The words that cannot be names. -/
inductive Keyword
  | fnWord
  | lambdaWord
  | ifWord
  | elseWord
  | returnWord
  | typeofWord
  | forWord
  | whileWord
  | debugWord
  | useWord
  | outWord
  | trueWord
  | falseWord
  | undefWord
  deriving DecidableEq, Repr

namespace Keyword

/-- Every keyword. -/
def all : List Keyword :=
  [.fnWord, .lambdaWord, .ifWord, .elseWord, .returnWord, .typeofWord, .forWord, .whileWord,
    .debugWord, .useWord, .outWord, .trueWord, .falseWord, .undefWord]

/-- How a keyword is written. -/
def spelling : Keyword → String
  | .fnWord => "fn"
  | .lambdaWord => "lambda"
  | .ifWord => "if"
  | .elseWord => "else"
  | .returnWord => "return"
  | .typeofWord => "typeof"
  | .forWord => "for"
  | .whileWord => "while"
  | .debugWord => "debug"
  | .useWord => "use"
  | .outWord => "out"
  | .trueWord => "true"
  | .falseWord => "false"
  | .undefWord => "undef"

/-- The keyword that a word is, if it is one. -/
def ofSpelling? (word : String) : Option Keyword :=
  all.find? (·.spelling == word)

end Keyword

/-- The marks of one character that always stand for themselves. -/
inductive Mark
  | openParen
  | closeParen
  | openBrace
  | closeBrace
  | openBracket
  | closeBracket
  | comma
  | dot
  | colon
  | semicolon
  | question
  deriving DecidableEq, Repr

namespace Mark

/-- Every mark. -/
def all : List Mark :=
  [.openParen, .closeParen, .openBrace, .closeBrace, .openBracket, .closeBracket, .comma, .dot,
    .colon, .semicolon, .question]

/-- How a mark is written. -/
def spelling : Mark → Char
  | .openParen => '('
  | .closeParen => ')'
  | .openBrace => '\x7b'
  | .closeBrace => '\x7d'
  | .openBracket => '['
  | .closeBracket => ']'
  | .comma => ','
  | .dot => '.'
  | .colon => ':'
  | .semicolon => ';'
  | .question => '?'

/-- The mark that a character is, if it is one. -/
def ofSpelling? (c : Char) : Option Mark :=
  all.find? (·.spelling == c)

end Mark

/-- The operators that the grammar knows apart by their kind. -/
inductive Sign
  | assign
  | plusAssign
  | minusAssign
  | starAssign
  | slashAssign
  | equal
  | notEqual
  | less
  | greater
  | lessEqual
  | greaterEqual
  | both
  | either
  | bang
  | increment
  | decrement
  deriving DecidableEq, Repr

namespace Sign

/-- Every operator of a kind of its own. -/
def all : List Sign :=
  [.assign, .plusAssign, .minusAssign, .starAssign, .slashAssign, .equal, .notEqual, .less,
    .greater, .lessEqual, .greaterEqual, .both, .either, .bang, .increment, .decrement]

/-- How an operator is written. -/
def spelling : Sign → String
  | .assign => "="
  | .plusAssign => "+="
  | .minusAssign => "-="
  | .starAssign => "*="
  | .slashAssign => "/="
  | .equal => "=="
  | .notEqual => "!="
  | .less => "<"
  | .greater => ">"
  | .lessEqual => "<="
  | .greaterEqual => ">="
  | .both => "&&"
  | .either => "||"
  | .bang => "!"
  | .increment => "++"
  | .decrement => "--"

/-- The operator that a text is, if it has a kind of its own. -/
def ofSpelling? (text : String) : Option Sign :=
  all.find? (·.spelling == text)

end Sign

/-- What a token is to the grammar. -/
inductive Token.Kind
  | identifier
  | string
  | int
  | float
  | keyword (word : Keyword)
  | mark (mark : Mark)
  | sign (sign : Sign)
  /-- Any other run of operator characters, told apart by its lexeme. -/
  | operator
  | newline
  /-- The end of the source. -/
  | eof
  deriving DecidableEq, Repr

/-- A symbol of the grammar with its text and its place. -/
structure Token where
  /-- What the token is to the grammar. -/
  kind : Token.Kind
  /-- The text of the token; for a string, the text that it stands for. -/
  lexeme : String
  /-- Where the token begins. -/
  position : Position
  deriving DecidableEq, Repr

namespace Token

/-- How many carets are drawn under a token: one for each character, and at least one. -/
def width (token : Token) : Nat :=
  max token.lexeme.length 1

/-- How a message speaks of a token. -/
def describe (token : Token) : String :=
  match token.kind with
  | .eof => "end of input"
  | .newline => "newline"
  | .string => "string \"" ++ token.lexeme ++ "\""
  | _ => "token `" ++ token.lexeme ++ "`"

end Token
end TinyScript
