import TinyScript.Diagnostic
import TinyScript.Token

/-!
# Reading a list of tokens

A parser takes tokens from the front of those ahead and yields a result, or it
refuses with a diagnostic.  Behind the last token the token that ends the source
is seen again and again, and is never taken.
-/

namespace TinyScript

/-- A parser: from the token that ends the source and the tokens ahead of that to a result and
the tokens that are left. -/
def Parse (α : Type) : Type :=
  (stop : Token) → (ahead : List Token) → Except Diagnostic (α × List Token)

namespace Parse

variable {α β : Type}

instance : Monad Parse where
  pure result := fun _ ahead => .ok (result, ahead)
  bind first next := fun stop ahead =>
    match first stop ahead with
    | .ok (result, rest) => next result stop rest
    | .error diagnostic => .error diagnostic

@[simp] theorem pure_apply (result : α) (stop : Token) (ahead : List Token) :
    (pure result : Parse α) stop ahead = .ok (result, ahead) :=
  rfl

theorem bind_apply (first : Parse α) (next : α → Parse β) (stop : Token) (ahead : List Token) :
    (first >>= next) stop ahead =
      match first stop ahead with
      | .ok (result, rest) => next result stop rest
      | .error diagnostic => .error diagnostic :=
  rfl

/-- Refuses a token. -/
def refuse (token : Token) (message : String) : Parse α :=
  fun _ _ =>
    let diagnostic : Diagnostic := { stage := .parser, message := message }
    .error ((diagnostic.withPosition token.position).withWidth token.width)

theorem refuse_apply (token : Token) (message : String) (stop : Token) (ahead : List Token) :
    (refuse token message : Parse α) stop ahead =
      .error
        { stage := .parser
          message := message
          position := some token.position
          width := token.width } := by
  simp [refuse, Diagnostic.withPosition, Diagnostic.withWidth, Token.width]

/-- Refuses a token that no form of the grammar can begin with or go on with. -/
def refuseUnexpected (token : Token) : Parse α :=
  refuse token
    (match token.kind with
      | .eof => "unexpected end of input"
      | _ => "unexpected " ++ token.describe)

/-- The next token, not taken. -/
def peek : Parse Token :=
  fun stop ahead => .ok (ahead.headD stop, ahead)

@[simp] theorem peek_apply (stop : Token) (ahead : List Token) :
    peek stop ahead = .ok (ahead.headD stop, ahead) :=
  rfl

/-- Takes the next token, whatever it is. -/
def advance : Parse Token :=
  fun stop ahead => .ok (ahead.headD stop, ahead.tail)

@[simp] theorem advance_cons (stop token : Token) (ahead : List Token) :
    advance stop (token :: ahead) = .ok (token, ahead) :=
  rfl

/-- The token that ends the source is seen, but stays where it is. -/
@[simp] theorem advance_nil (stop : Token) : advance stop [] = .ok (stop, []) :=
  rfl

/-- Whether the next token is of a kind; it is not taken. -/
def check (kind : Token.Kind) : Parse Bool :=
  fun stop ahead => .ok ((ahead.headD stop).kind == kind, ahead)

@[simp] theorem check_apply (kind : Token.Kind) (stop : Token) (ahead : List Token) :
    check kind stop ahead = .ok ((ahead.headD stop).kind == kind, ahead) :=
  rfl

/-- Takes the next token if it is of a kind, and says whether it was. -/
def accept (kind : Token.Kind) : Parse Bool :=
  fun stop ahead =>
    if (ahead.headD stop).kind = kind then .ok (true, ahead.tail) else .ok (false, ahead)

theorem accept_of_eq {kind : Token.Kind} {stop : Token} {ahead : List Token}
    (found : (ahead.headD stop).kind = kind) :
    accept kind stop ahead = .ok (true, ahead.tail) :=
  if_pos found

theorem accept_of_ne {kind : Token.Kind} {stop : Token} {ahead : List Token}
    (other : (ahead.headD stop).kind ≠ kind) : accept kind stop ahead = .ok (false, ahead) :=
  if_neg other

/-- Takes the next token, which must be of a kind. -/
def expect (kind : Token.Kind) (message : String) : Parse Token :=
  fun stop ahead =>
    let token := ahead.headD stop
    if token.kind = kind then .ok (token, ahead.tail)
    else refuse token (message ++ ", found " ++ token.describe) stop ahead

theorem expect_of_eq {kind : Token.Kind} {stop : Token} {ahead : List Token}
    (found : (ahead.headD stop).kind = kind) (message : String) :
    expect kind message stop ahead = .ok (ahead.headD stop, ahead.tail) :=
  if_pos found

/-- Takes newlines as long as there are any. -/
def skipNewlines : Parse Unit :=
  fun _ ahead => .ok ((), ahead.dropWhile (·.kind == .newline))

/-- Takes newlines and semicolons as long as there are any. -/
def skipSeparators : Parse Unit :=
  fun _ ahead =>
    .ok ((), ahead.dropWhile fun token =>
      token.kind == .newline || token.kind == .mark .semicolon)

/-- Takes a token of a kind with the newlines before it, and says whether there was one; when
there is none the newlines are left too. -/
def acceptPastNewlines (kind : Token.Kind) : Parse Bool :=
  fun stop ahead =>
    let rest := ahead.dropWhile (·.kind == .newline)
    if (rest.headD stop).kind = kind then .ok (true, rest.tail) else .ok (false, ahead)

/-- Runs a parser that is told which tokens are ahead.  A loop that takes a token in every round
can count its rounds by them. -/
def withAhead (body : List Token → Parse α) : Parse α :=
  fun stop ahead => body ahead stop ahead

/-- Extends a result for as long as the next token says how: it is taken, and the extension
reads on from behind it.  There are at most as many rounds as the bound has tokens. -/
def extendUpTo (extension? : Token → Option (α → Parse α)) : (bound : List Token) → α → Parse α
  | [], result => pure result
  | _ :: bound, result => do
    match extension? (← peek) with
    | none => pure result
    | some extension =>
      let _ ← advance
      extendUpTo extension? bound (← extension result)

/-- Extends a result for as long as the next token says how. -/
def extend (extension? : Token → Option (α → Parse α)) (result : α) : Parse α :=
  withAhead fun ahead => extendUpTo extension? ahead result

/-- Items with commas between them and perhaps behind the last, up to a closing mark, which is
not taken.  Newlines may stand around each item and comma.  There are at most as many rounds as
the bound has tokens. -/
def itemsUpTo (closing : Mark) (item : Parse α) : (bound : List Token) → Parse (List α)
  | [] => pure []
  | _ :: bound => do
    if ← check (.mark closing) then
      pure []
    else
      let first ← item
      skipNewlines
      if ← accept (.mark .comma) then
        skipNewlines
        let others ← itemsUpTo closing item bound
        pure (first :: others)
      else
        pure [first]

/-- A list in brackets behind its opening bracket, the closing one included.  The round for the
closing bracket takes no token, so the bound has one more than there are ahead. -/
def listUpTo (closing : Mark) (message : String) (item : Parse α) : Parse (List α) := do
  skipNewlines
  let next ← peek
  let items ← withAhead fun ahead => itemsUpTo closing item (next :: ahead)
  let _ ← expect (.mark closing) message
  pure items

end Parse
end TinyScript
