import TinyScript.Proofs.Grammar.Derivation

/-!
# What one step of a parser does

Each equivalence says when a parser that begins with one of the basic steps
succeeds.  Read from left to right it takes a run of the parser apart, and read
from right to left it puts one together.

Throughout, the token behind the last one is one that ends the source.
-/

namespace TinyScript
namespace Grammar

open Parse

variable {α β : Type}

/-- The next token that a parser sees has the kind that is ahead. -/
theorem kind_headD
    {stop : Token}
    (stopEnds : stop.kind = .eof)
    (ahead : List Token) :
    (ahead.headD stop).kind = kindAhead ahead := by
  cases ahead with
  | nil => exact stopEnds
  | cons token ahead => rfl

/-- A kind ahead other than the end of the source is that of a token. -/
theorem exists_cons_of_kindAhead
    {kind : Token.Kind}
    {ahead : List Token}
    (found : kindAhead ahead = kind)
    (noEnd : kind ≠ .eof) :
    ∃ token rest, ahead = token :: rest ∧ token.kind = kind := by
  cases ahead with
  | nil => exact absurd found.symm noEnd
  | cons token rest => exact ⟨token, rest, rfl, found⟩

/-- Whatever reads a token sees none at the end of the source. -/
theorem operation?_headD
    {operation? : Token → Option β}
    {stop : Token}
    (noEnd : operation? stop = none)
    (ahead : List Token) :
    operation? (ahead.headD stop) = ahead.head?.bind operation? := by
  cases ahead with
  | nil => exact noEnd
  | cons token ahead => rfl

/-! ## Sequences -/

theorem bind_eq_ok
    (first : Parse α)
    (next : α → Parse β)
    (stop : Token)
    (ahead : List Token)
    (outcome : β × List Token) :
    (first >>= next) stop ahead = .ok outcome ↔
      ∃ result rest, first stop ahead = .ok (result, rest) ∧
        next result stop rest = .ok outcome := by
  rw [bind_apply]
  rcases first stop ahead with diagnostic | ⟨result, rest⟩
  · simp
  · constructor
    · intro ok
      exact ⟨result, rest, rfl, ok⟩
    · rintro ⟨_, _, same, ok⟩
      cases same
      exact ok

/-- A parser whose first part is known to succeed goes on behind it. -/
theorem bind_of_ok
    {first : Parse α}
    {stop : Token}
    {ahead rest : List Token}
    {result : α}
    (ok : first stop ahead = .ok (result, rest))
    (next : α → Parse β) :
    (first >>= next) stop ahead = next result stop rest := by
  rw [bind_apply, ok]

/-- A parser whose first part refuses does so too. -/
theorem bind_of_error
    {first : Parse α}
    {stop : Token}
    {ahead : List Token}
    {diagnostic : Diagnostic}
    (refused : first stop ahead = .error diagnostic)
    (next : α → Parse β) :
    (first >>= next) stop ahead = .error diagnostic := by
  rw [bind_apply, refused]

theorem pure_bind
    (result : α)
    (next : α → Parse β)
    (stop : Token)
    (ahead : List Token) :
    (pure result >>= next) stop ahead = next result stop ahead :=
  rfl

theorem refuse_ne_ok
    (token : Token)
    (message : String)
    (stop : Token)
    (ahead : List Token)
    (outcome : α × List Token) :
    ¬ (refuse token message : Parse α) stop ahead = .ok outcome := by
  intro refused
  cases refused

theorem refuseUnexpected_ne_ok
    (token stop : Token)
    (ahead : List Token)
    (outcome : α × List Token) :
    ¬ (refuseUnexpected token : Parse α) stop ahead = .ok outcome :=
  refuse_ne_ok token _ stop ahead outcome

theorem peek_bind
    (next : Token → Parse β)
    (stop : Token)
    (ahead : List Token) :
    (peek >>= next) stop ahead = next (ahead.headD stop) stop ahead :=
  rfl

theorem advance_bind
    (next : Token → Parse β)
    (stop token : Token)
    (ahead : List Token) :
    (advance >>= next) stop (token :: ahead) = next token stop ahead :=
  rfl

theorem withAhead_apply
    (body : List Token → Parse α)
    (stop : Token)
    (ahead : List Token) :
    withAhead body stop ahead = body ahead stop ahead :=
  rfl

/-! ## Tokens of one kind -/

theorem check_of_eof
    {stop : Token}
    (stopEnds : stop.kind = .eof)
    (kind : Token.Kind)
    (ahead : List Token) :
    check kind stop ahead = .ok (kindAhead ahead == kind, ahead) := by
  rw [check_apply, kind_headD stopEnds]

theorem accept_found
    {kind : Token.Kind}
    {token : Token}
    (found : token.kind = kind)
    (stop : Token)
    (rest : List Token) :
    accept kind stop (token :: rest) = .ok (true, rest) :=
  if_pos found

theorem accept_missing
    {kind : Token.Kind}
    {stop : Token}
    (stopEnds : stop.kind = .eof)
    {ahead : List Token}
    (missing : kindAhead ahead ≠ kind) :
    accept kind stop ahead = .ok (false, ahead) :=
  if_neg (by rwa [kind_headD stopEnds])

theorem expect_found
    {kind : Token.Kind}
    {token : Token}
    (found : token.kind = kind)
    (message : String)
    (stop : Token)
    (rest : List Token) :
    expect kind message stop (token :: rest) = .ok (token, rest) :=
  if_pos found

theorem check_eq_ok
    {stop : Token}
    (stopEnds : stop.kind = .eof)
    (kind : Token.Kind)
    (found other : Parse β)
    (ahead : List Token)
    (outcome : β × List Token) :
    (do if ← check kind then found else other) stop ahead = .ok outcome ↔
      (kindAhead ahead = kind ∧ found stop ahead = .ok outcome) ∨
      (kindAhead ahead ≠ kind ∧ other stop ahead = .ok outcome) := by
  rw [bind_of_ok (check_of_eof stopEnds ..)]
  by_cases isFound : kindAhead ahead = kind
  · simp [isFound]
  · simp [isFound]

theorem accept_eq_ok
    {stop : Token}
    (stopEnds : stop.kind = .eof)
    {kind : Token.Kind}
    (noEnd : kind ≠ .eof)
    (found other : Parse β)
    (ahead : List Token)
    (outcome : β × List Token) :
    (do if ← accept kind then found else other) stop ahead = .ok outcome ↔
      (∃ token rest, ahead = token :: rest ∧ token.kind = kind ∧
        found stop rest = .ok outcome) ∨
      (kindAhead ahead ≠ kind ∧ other stop ahead = .ok outcome) := by
  by_cases isFound : kindAhead ahead = kind
  · obtain ⟨token, rest, rfl, tokenKind⟩ := exists_cons_of_kindAhead isFound noEnd
    rw [bind_of_ok (accept_found tokenKind ..), if_pos rfl]
    constructor
    · intro ok
      exact Or.inl ⟨token, rest, rfl, tokenKind, ok⟩
    · rintro (⟨_, _, same, _, ok⟩ | ⟨isOther, _⟩)
      · cases same
        exact ok
      · exact absurd isFound isOther
  · rw [bind_of_ok (accept_missing stopEnds isFound), if_neg Bool.false_ne_true]
    constructor
    · intro ok
      exact Or.inr ⟨isFound, ok⟩
    · rintro (⟨token, rest, rfl, tokenKind, _⟩ | ⟨_, ok⟩)
      · exact absurd tokenKind isFound
      · exact ok

/-- A token that may be left out is taken if it is there. -/
theorem accept_bind_eq_ok
    {stop : Token}
    (stopEnds : stop.kind = .eof)
    {kind : Token.Kind}
    (noEnd : kind ≠ .eof)
    (next : Parse β)
    (ahead : List Token)
    (outcome : β × List Token) :
    (accept kind >>= fun _ => next) stop ahead = .ok outcome ↔
      (∃ token rest, ahead = token :: rest ∧ token.kind = kind ∧
        next stop rest = .ok outcome) ∨
      (kindAhead ahead ≠ kind ∧ next stop ahead = .ok outcome) := by
  rw [← accept_eq_ok stopEnds noEnd next next ahead outcome]
  simp only [ite_self]

theorem expect_bind_eq_ok
    {stop : Token}
    (stopEnds : stop.kind = .eof)
    {kind : Token.Kind}
    (noEnd : kind ≠ .eof)
    (message : String)
    (next : Token → Parse β)
    (ahead : List Token)
    (outcome : β × List Token) :
    (expect kind message >>= next) stop ahead = .ok outcome ↔
      ∃ token rest, ahead = token :: rest ∧ token.kind = kind ∧
        next token stop rest = .ok outcome := by
  by_cases found : kindAhead ahead = kind
  · obtain ⟨token, rest, rfl, tokenKind⟩ := exists_cons_of_kindAhead found noEnd
    rw [bind_of_ok (expect_found tokenKind ..)]
    constructor
    · intro ok
      exact ⟨token, rest, rfl, tokenKind, ok⟩
    · rintro ⟨_, _, same, _, ok⟩
      cases same
      exact ok
  · have other : (ahead.headD stop).kind ≠ kind := by rwa [kind_headD stopEnds]
    constructor
    · intro ok
      rw [bind_apply, expect] at ok
      simp only [other, if_false, refuse] at ok
      cases ok
    · rintro ⟨token, rest, rfl, tokenKind, _⟩
      exact absurd tokenKind found

/-- The name behind a point is that of any word. -/
theorem memberName_eq_ok
    {stop : Token}
    (stopEnds : stop.kind = .eof)
    (ahead : List Token)
    (name : String)
    (rest : List Token) :
    Rules.memberName stop ahead = .ok (name, rest) ↔
      ∃ key, ahead = key :: rest ∧ (key.kind = .identifier ∨ ∃ word, key.kind = .keyword word) ∧
        name = key.lexeme := by
  rw [Rules.memberName, peek_bind]
  cases ahead with
  | nil =>
    constructor
    · intro ok
      rw [List.headD_nil, stopEnds] at ok
      exact (refuse_ne_ok _ _ _ _ _ ok).elim
    · rintro ⟨key, split, _⟩
      cases split
  | cons key ahead =>
    rw [List.headD_cons]
    constructor
    · intro ok
      cases kind : key.kind with
      | identifier =>
        rw [kind] at ok
        cases ok
        exact ⟨key, rfl, Or.inl kind, rfl⟩
      | keyword word =>
        rw [kind] at ok
        cases ok
        exact ⟨key, rfl, Or.inr ⟨word, kind⟩, rfl⟩
      | _ =>
        rw [kind] at ok
        exact (refuse_ne_ok _ _ _ _ _ ok).elim
    · rintro ⟨_, split, kind | ⟨word, kind⟩, rfl⟩
      · cases split
        rw [kind]
        rfl
      · cases split
        rw [kind]
        rfl

/-! ## Newlines and separators -/

/-- The newlines at the front of a list of tokens. -/
theorem exists_newlines
    (ahead : List Token) :
    ∃ newlines rest, ahead = newlines ++ rest ∧ Newlines newlines ∧
      kindAhead rest ≠ .newline ∧ ahead.dropWhile (·.kind == .newline) = rest := by
  refine ⟨ahead.takeWhile (·.kind == .newline), ahead.dropWhile (·.kind == .newline),
    List.takeWhile_append_dropWhile.symm, ?_, ?_, rfl⟩
  · intro token isIn
    have kept := List.all_eq_true.mp (List.all_takeWhile (p := (·.kind == .newline))) token isIn
    simpa using kept
  · cases rest : ahead.dropWhile (·.kind == .newline) with
    | nil => simp
    | cons token rest =>
      have notDropped := List.head?_dropWhile_not (·.kind == .newline) ahead
      rw [rest] at notDropped
      simpa using notDropped

/-- Newlines before a token that is none are all the newlines there are. -/
theorem dropWhile_newlines
    {newlines rest : List Token}
    (areNewlines : Newlines newlines)
    (restBegins : kindAhead rest ≠ .newline) :
    (newlines ++ rest).dropWhile (·.kind == .newline) = rest := by
  rw [List.dropWhile_append_of_pos]
  · cases rest with
    | nil => rfl
    | cons token rest =>
      rw [List.dropWhile_cons_of_neg]
      simpa using restBegins
  · intro token isIn
    simp [areNewlines token isIn]

theorem skipNewlines_found
    {newlines rest : List Token}
    (areNewlines : Newlines newlines)
    (restBegins : kindAhead rest ≠ .newline)
    (stop : Token) :
    skipNewlines stop (newlines ++ rest) = .ok ((), rest) := by
  rw [skipNewlines, dropWhile_newlines areNewlines restBegins]

theorem skipNewlines_bind_eq_ok
    (next : Unit → Parse β)
    (stop : Token)
    (ahead : List Token)
    (outcome : β × List Token) :
    (skipNewlines >>= next) stop ahead = .ok outcome ↔
      ∃ newlines rest, ahead = newlines ++ rest ∧ Newlines newlines ∧
        kindAhead rest ≠ .newline ∧ next () stop rest = .ok outcome := by
  constructor
  · intro ok
    obtain ⟨newlines, rest, rfl, areNewlines, restBegins, _⟩ := exists_newlines ahead
    rw [bind_of_ok (skipNewlines_found areNewlines restBegins stop)] at ok
    exact ⟨newlines, rest, rfl, areNewlines, restBegins, ok⟩
  · rintro ⟨newlines, rest, rfl, areNewlines, restBegins, ok⟩
    rwa [bind_of_ok (skipNewlines_found areNewlines restBegins stop)]

/-- Whether a token separates statements. -/
def isSeparator (token : Token) : Bool :=
  token.kind == .newline || token.kind == .mark .semicolon

/-- The separators at the front of a list of tokens. -/
theorem exists_separators
    (ahead : List Token) :
    ∃ separators rest, ahead = separators ++ rest ∧ Separators separators ∧
      kindAhead rest ≠ .newline ∧ kindAhead rest ≠ .mark .semicolon := by
  refine ⟨ahead.takeWhile isSeparator, ahead.dropWhile isSeparator,
    List.takeWhile_append_dropWhile.symm, ?_, ?_⟩
  · intro token isIn
    have kept := List.all_eq_true.mp (List.all_takeWhile (p := isSeparator)) token isIn
    simpa [isSeparator] using kept
  · cases rest : ahead.dropWhile isSeparator with
    | nil => simp
    | cons token rest =>
      have notDropped := List.head?_dropWhile_not isSeparator ahead
      rw [rest] at notDropped
      simpa [isSeparator] using notDropped

theorem skipSeparators_found
    {separators rest : List Token}
    (areSeparators : Separators separators)
    (noNewline : kindAhead rest ≠ .newline)
    (noSemicolon : kindAhead rest ≠ .mark .semicolon)
    (stop : Token) :
    skipSeparators stop (separators ++ rest) = .ok ((), rest) := by
  have dropped : (separators ++ rest).dropWhile isSeparator = rest := by
    rw [List.dropWhile_append_of_pos]
    · cases rest with
      | nil => rfl
      | cons token rest =>
        rw [List.dropWhile_cons_of_neg]
        simpa [isSeparator] using And.intro noNewline noSemicolon
    · intro token isIn
      simpa [isSeparator] using areSeparators token isIn
  exact congrArg (fun rest => Except.ok ((), rest)) dropped

theorem skipSeparators_bind_eq_ok
    (next : Unit → Parse β)
    (stop : Token)
    (ahead : List Token)
    (outcome : β × List Token) :
    (skipSeparators >>= next) stop ahead = .ok outcome ↔
      ∃ separators rest, ahead = separators ++ rest ∧ Separators separators ∧
        kindAhead rest ≠ .newline ∧ kindAhead rest ≠ .mark .semicolon ∧
          next () stop rest = .ok outcome := by
  constructor
  · intro ok
    obtain ⟨separators, rest, rfl, areSeparators, noNewline, noSemicolon⟩ :=
      exists_separators ahead
    rw [bind_of_ok (skipSeparators_found areSeparators noNewline noSemicolon stop)] at ok
    exact ⟨separators, rest, rfl, areSeparators, noNewline, noSemicolon, ok⟩
  · rintro ⟨separators, rest, rfl, areSeparators, noNewline, noSemicolon, ok⟩
    rwa [bind_of_ok (skipSeparators_found areSeparators noNewline noSemicolon stop)]

theorem acceptPastNewlines_found
    {kind : Token.Kind}
    (noNewline : kind ≠ .newline)
    {newlines : List Token}
    (areNewlines : Newlines newlines)
    {token : Token}
    (found : token.kind = kind)
    (stop : Token)
    (rest : List Token) :
    acceptPastNewlines kind stop (newlines ++ token :: rest) = .ok (true, rest) := by
  have tokenBegins : kindAhead (token :: rest) ≠ .newline := by
    rwa [kindAhead_cons, found]
  rw [acceptPastNewlines, dropWhile_newlines areNewlines tokenBegins]
  exact if_pos found

theorem acceptPastNewlines_missing
    {kind : Token.Kind}
    {stop : Token}
    (stopEnds : stop.kind = .eof)
    {ahead : List Token}
    (missing : kindAhead (ahead.dropWhile (·.kind == .newline)) ≠ kind) :
    acceptPastNewlines kind stop ahead = .ok (false, ahead) :=
  if_neg (by rwa [kind_headD stopEnds])

theorem acceptPastNewlines_eq_ok
    {stop : Token}
    (stopEnds : stop.kind = .eof)
    {kind : Token.Kind}
    (noEnd : kind ≠ .eof)
    (noNewline : kind ≠ .newline)
    (found other : Parse β)
    (ahead : List Token)
    (outcome : β × List Token) :
    (do if ← acceptPastNewlines kind then found else other) stop ahead = .ok outcome ↔
      (∃ newlines token rest, ahead = newlines ++ token :: rest ∧ Newlines newlines ∧
        token.kind = kind ∧ found stop rest = .ok outcome) ∨
      (kindAhead (ahead.dropWhile (·.kind == .newline)) ≠ kind ∧
        other stop ahead = .ok outcome) := by
  by_cases isFound : kindAhead (ahead.dropWhile (·.kind == .newline)) = kind
  · obtain ⟨newlines, rest, rfl, areNewlines, _, dropped⟩ := exists_newlines ahead
    rw [dropped] at isFound ⊢
    obtain ⟨token, rest, rfl, tokenKind⟩ := exists_cons_of_kindAhead isFound noEnd
    rw [bind_of_ok (acceptPastNewlines_found noNewline areNewlines tokenKind ..), if_pos rfl]
    constructor
    · intro ok
      exact Or.inl ⟨newlines, token, rest, rfl, areNewlines, tokenKind, ok⟩
    · rintro (⟨others, opener, behind, split, areOthers, openerKind, ok⟩ | ⟨isOther, _⟩)
      · have openerBegins : kindAhead (opener :: behind) ≠ .newline := by
          rwa [kindAhead_cons, openerKind]
        have same := dropWhile_newlines areOthers openerBegins
        rw [← split, dropped] at same
        cases same
        exact ok
      · exact absurd isFound isOther
  · rw [bind_of_ok (acceptPastNewlines_missing stopEnds isFound), if_neg Bool.false_ne_true]
    constructor
    · intro ok
      exact Or.inr ⟨isFound, ok⟩
    · rintro (⟨newlines, token, rest, rfl, areNewlines, tokenKind, _⟩ | ⟨_, ok⟩)
      · have tokenBegins : kindAhead (token :: rest) ≠ .newline := by
          rwa [kindAhead_cons, tokenKind]
        rw [dropWhile_newlines areNewlines tokenBegins] at isFound
        exact absurd tokenKind isFound
      · exact ok

/-! ## What ends a repetition -/

theorem endsAccesses_iff
    (rules : Rules)
    (next : List Token) :
    EndsAccesses next ↔ next.head?.bind rules.suffix? = none := by
  cases next with
  | nil => exact ⟨fun _ => rfl, fun _ => ⟨by simp, by simp, by simp⟩⟩
  | cons token next =>
    rw [List.head?_cons, Option.bind_some, Rules.suffix?]
    constructor
    · rintro ⟨noCall, noMember, noIndex⟩
      rw [kindAhead_cons] at noCall noMember noIndex
      split <;> first | contradiction | rfl
    · intro ends
      split at ends
      case h_4 noCall noMember noIndex => exact ⟨noCall, noMember, noIndex⟩
      all_goals cases ends

theorem Chain.operation?_of_eof
    (chain : Chain)
    {stop : Token}
    (stopEnds : stop.kind = .eof) :
    chain.operation? stop = none := by
  cases chain <;> simp [Chain.operation?, Rules.logicalOperator?, Rules.equalityOperator?,
    Rules.comparisonOperator?, Rules.sumOperator?, Rules.productOperator?, stopEnds]

/-- How a chain of operations goes on behind an operand. -/
def Chain.extension?
    (chain : Chain)
    (operand : Parse Expr)
    (token : Token) :
    Option (Expr → Parse Expr) :=
  (chain.operation? token).map fun operation left => do
    let right ← operand
    pure (operation left.position left right)

theorem Chain.bind_extension?_eq_none
    (chain : Chain)
    (operand : Parse Expr)
    (next : List Token) :
    next.head?.bind (chain.extension? operand) = none ↔
      next.head?.bind chain.operation? = none := by
  cases next with
  | nil => exact ⟨fun _ => rfl, fun _ => rfl⟩
  | cons token next =>
    rw [List.head?_cons, Option.bind_some, Option.bind_some, Chain.extension?]
    exact Option.map_eq_none_iff

theorem Rules.declarationAhead_apply
    (stop : Token)
    (ahead : List Token) :
    Rules.declarationAhead stop ahead = .ok (declared? ahead, ahead) := by
  rcases ahead with _ | ⟨colon, _ | ⟨word, _ | ⟨equals, rest⟩⟩⟩
  · rfl
  · rfl
  · rfl
  · simp only [Rules.declarationAhead, declared?]
    split <;> rfl

/-- A declaration ahead is a colon, a flavour and an equals sign. -/
theorem exists_declaration
    {next : List Token}
    {flavour : Flavour}
    (declares : declared? next = some flavour) :
    ∃ colon word equals rest, next = colon :: word :: equals :: rest ∧
      colon.kind = .mark .colon ∧ equals.kind = .sign .assign ∧
        Rules.flavour? word = some flavour := by
  unfold declared? at declares
  split at declares
  case h_1 colon word equals rest =>
    split at declares
    case isTrue kinds => exact ⟨colon, word, equals, rest, rfl, kinds.1, kinds.2, declares⟩
    case isFalse => cases declares
  case h_2 => cases declares

/-! ## Whole programs -/

/-- The token that ends the source is of the kind that does. -/
theorem endToken_kind
    (tokens : List Token) :
    (Program.endToken tokens).kind = .eof := by
  unfold Program.endToken
  cases found : tokens.find? (·.kind == .eof) with
  | none => rfl
  | some token => simpa using List.find?_some found

/-- None of the tokens ahead ends the source. -/
theorem kind_ne_eof_of_mem_tokensAhead
    {tokens : List Token}
    {token : Token}
    (isAhead : token ∈ Program.tokensAhead tokens) :
    token.kind ≠ .eof := by
  unfold Program.tokensAhead at isAhead
  have kept := List.all_eq_true.mp List.all_takeWhile token isAhead
  simpa using kept

section Append

variable {tokens : List Token} (others : ∀ token ∈ tokens, token.kind ≠ .eof) {stop : Token}
  (stopEnds : stop.kind = .eof)

include others stopEnds

theorem tokensAhead_append
    (beyond : List Token) :
    Program.tokensAhead (tokens ++ stop :: beyond) = tokens := by
  rw [Program.tokensAhead, List.takeWhile_append_of_pos, List.takeWhile_cons_of_neg,
    List.append_nil]
  · simp [stopEnds]
  · simpa using others

theorem endToken_append
    (beyond : List Token) :
    Program.endToken (tokens ++ stop :: beyond) = stop := by
  have none : tokens.find? (·.kind == .eof) = none := by simpa using others
  rw [Program.endToken, List.find?_append, none, Option.none_or,
    List.find?_cons_of_pos (by simpa using stopEnds), Option.getD_some]

end Append

theorem ofTokens_eq_ok
    (tokens : List Token)
    (program : Program) :
    Program.ofTokens tokens = .ok program ↔
      ∃ rest, Rules.statements (Rules.upTo (Program.tokensAhead tokens).length).statement
        (·.kind == .eof) (Program.endToken tokens) (Program.tokensAhead tokens) =
          .ok (program, rest) := by
  unfold Program.ofTokens
  dsimp only
  cases Rules.statements (Rules.upTo (Program.tokensAhead tokens).length).statement
      (·.kind == .eof) (Program.endToken tokens) (Program.tokensAhead tokens) with
  | error diagnostic => simp [Except.map]
  | ok outcome =>
    obtain ⟨statements, rest⟩ := outcome
    constructor
    · intro ok
      cases ok
      exact ⟨rest, rfl⟩
    · rintro ⟨_, ok⟩
      cases ok
      rfl

end Grammar
end TinyScript
