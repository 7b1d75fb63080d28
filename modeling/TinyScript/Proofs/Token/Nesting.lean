import TinyScript.Token

/-!
# Brackets among tokens

A run of tokens is nested if every bracket in it is closed by its own kind.  Then
no beginning of the run closes more brackets than it opens, and the whole run
closes as many as it opens.  How many more it opens is counted by `excess`.
-/

namespace TinyScript

namespace Mark

/-- The mark that closes what a mark opens. -/
def closing? : Mark → Option Mark
  | .openParen => some .closeParen
  | .openBrace => some .closeBrace
  | .openBracket => some .closeBracket
  | _ => none

/-- Whether a mark opens a bracket. -/
def opens : Mark → Bool
  | .openParen | .openBrace | .openBracket => true
  | _ => false

/-- Whether a mark closes a bracket. -/
def closes : Mark → Bool
  | .closeParen | .closeBrace | .closeBracket => true
  | _ => false

theorem opens_of_closing?
    {opening closing : Mark}
    (pair : opening.closing? = some closing) :
    opening.opens = true ∧ closing.closes = true := by
  cases opening <;> cases pair <;> exact ⟨rfl, rfl⟩

end Mark

namespace Token

/-- Whether a token of a kind is an opening bracket. -/
def Kind.opens : Kind → Bool
  | .mark written => written.opens
  | _ => false

/-- Whether a token of a kind is a closing bracket. -/
def Kind.closes : Kind → Bool
  | .mark written => written.closes
  | _ => false

/-- Whether a token is an opening bracket. -/
def opens (token : Token) : Bool :=
  token.kind.opens

/-- Whether a token is a closing bracket. -/
def closes (token : Token) : Bool :=
  token.kind.closes

/-! ## Counting -/

/-- The opening brackets among tokens less the closing ones. -/
def excess (tokens : List Token) : Int :=
  tokens.countP opens - tokens.countP closes

@[simp] theorem excess_nil :
    excess [] = 0 :=
  rfl

theorem excess_append
    (tokens others : List Token) :
    excess (tokens ++ others) = excess tokens + excess others := by
  simp only [excess, List.countP_append]
  omega

theorem excess_cons
    (token : Token)
    (tokens : List Token) :
    excess (token :: tokens) = excess [token] + excess tokens :=
  excess_append [token] tokens

@[simp] theorem excess_reverse
    (tokens : List Token) :
    excess tokens.reverse = excess tokens := by
  simp only [excess, List.countP_reverse]

theorem excess_singleton
    (token : Token) :
    excess [token] = (if token.opens then 1 else 0) - (if token.closes then 1 else 0) := by
  simp only [excess, List.countP_singleton]
  split <;> split <;> rfl

theorem excess_opening
    {opening : Token}
    {mark : Mark}
    (kind : opening.kind = .mark mark)
    (opens : mark.opens = true) :
    excess [opening] = 1 := by
  rw [excess_singleton, Token.opens, Token.closes, kind]
  cases mark <;> first | rfl | cases opens

theorem excess_closing
    {closing : Token}
    {mark : Mark}
    (kind : closing.kind = .mark mark)
    (closes : mark.closes = true) :
    excess [closing] = -1 := by
  rw [excess_singleton, Token.opens, Token.closes, kind]
  cases mark <;> first | rfl | cases closes

/-! ## Nesting -/

/-- A run of tokens in which every bracket is closed by its own kind. -/
inductive Nested : List Token → Prop
  | nil : Nested []
  /-- A token that is no bracket. -/
  | plain
      {token : Token} {rest : List Token}
      (noOpening : token.opens = false)
      (noClosing : token.closes = false)
      (restNested : Nested rest) :
      Nested (token :: rest)
  /-- A run in brackets of one kind. -/
  | enclosed
      {opening closing : Token} {mark ending : Mark} {inside rest : List Token}
      (openingKind : opening.kind = .mark mark)
      (pair : mark.closing? = some ending)
      (insideNested : Nested inside)
      (closingKind : closing.kind = .mark ending)
      (restNested : Nested rest) :
      Nested (opening :: (inside ++ closing :: rest))

namespace Nested

variable {tokens others : List Token}

theorem append
    (nested : Nested tokens)
    (othersNested : Nested others) :
    Nested (tokens ++ others) := by
  induction nested with
  | nil => exact othersNested
  | plain noOpening noClosing _ ih => exact .plain noOpening noClosing ih
  | enclosed openingKind pair insideNested closingKind _ _ ih =>
    rw [List.cons_append, List.append_assoc, List.cons_append]
    exact .enclosed openingKind pair insideNested closingKind ih

/-- A token of a kind that is no bracket may stand in front. -/
theorem cons
    {token : Token}
    {kind : Kind}
    (same : token.kind = kind)
    (noOpening : kind.opens = false)
    (noClosing : kind.closes = false)
    (nested : Nested tokens) :
    Nested (token :: tokens) := by
  subst same
  exact .plain noOpening noClosing nested

/-- A token that is no mark is no bracket. -/
theorem cons_of_ne_mark
    {token : Token}
    (notMark : ∀ mark, token.kind ≠ .mark mark)
    (nested : Nested tokens) :
    Nested (token :: tokens) := by
  cases kind : token.kind with
  | mark mark => exact absurd kind (notMark mark)
  | _ => exact .cons kind rfl rfl nested

theorem of_forall
    (noBracket : ∀ token ∈ tokens, token.opens = false ∧ token.closes = false) :
    Nested tokens := by
  induction tokens with
  | nil => exact .nil
  | cons token rest ih =>
    rw [List.forall_mem_cons] at noBracket
    exact .plain noBracket.1.1 noBracket.1.2 (ih noBracket.2)

/-- A nested run closes as many brackets as it opens. -/
theorem excess_eq_zero
    (nested : Nested tokens) :
    excess tokens = 0 := by
  induction nested with
  | nil => rfl
  | plain noOpening noClosing _ ih =>
    rw [excess_cons, excess_singleton, noOpening, noClosing, ih]
    rfl
  | @enclosed _ closing _ _ _ _ openingKind pair _ closingKind _ inside rest =>
    obtain ⟨opens, closes⟩ := Mark.opens_of_closing? pair
    rw [excess_cons, excess_append, excess_cons closing, excess_opening openingKind opens,
      excess_closing closingKind closes, inside, rest]
    rfl

/-- A beginning of a nested run does not close more brackets than it opens. -/
theorem excess_nonneg
    (nested : Nested tokens)
    {before after : List Token}
    (split : tokens = before ++ after) :
    0 ≤ excess before := by
  induction nested generalizing before after with
  | nil =>
    rw [(List.append_eq_nil_iff.1 split.symm).1]
    exact Int.le_refl 0
  | plain noOpening noClosing _ ih =>
    cases before with
    | nil => exact Int.le_refl 0
    | cons token before =>
      obtain ⟨rfl, rest⟩ := List.cons.inj split
      have known := ih rest
      rw [excess_cons, excess_singleton, noOpening, noClosing]
      simpa using known
  | @enclosed opening closing mark ending inside rest openingKind pair insideNested closingKind
      _ insideKnown restKnown =>
    obtain ⟨opens, closes⟩ := Mark.opens_of_closing? pair
    cases before with
    | nil => exact Int.le_refl 0
    | cons token before =>
      obtain ⟨rfl, behind⟩ := List.cons.inj split
      rw [excess_cons, excess_opening openingKind opens]
      -- The beginning ends inside the brackets, or behind the closing one.
      rcases List.append_eq_append_iff.1 behind with
        ⟨more, rfl, others⟩ | ⟨more, rfl, _⟩
      · cases more with
        | nil =>
          have balanced := insideNested.excess_eq_zero
          rw [List.append_nil, balanced]
          decide
        | cons found more =>
          obtain ⟨rfl, rfl⟩ := List.cons.inj others
          have known := restKnown rfl
          rw [excess_append, excess_cons, excess_closing closingKind closes,
            insideNested.excess_eq_zero]
          omega
      · have known := insideKnown rfl
        omega

end Nested

end Token
end TinyScript
