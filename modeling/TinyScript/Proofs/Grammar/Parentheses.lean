import TinyScript.Proofs.Grammar.Writing

/-!
# Parentheses are needed

Where the printer puts an expression in parentheses, every derivation of that
expression in that place has parentheses around it.  A derivation without them
makes an expression at least as tight as the place calls for.
-/

namespace TinyScript
namespace Grammar

/-! ## Places -/

/-- The places where the printer puts expressions. -/
inductive Slot
  /-- Where an expression of a level is called for, whatever stands behind it. -/
  | whole (level : Level) (loose : level.rank ≤ Level.unary.rank)
  /-- The left operand of an operator. -/
  | left (chain : Chain)
  /-- What is called or accessed. -/
  | subject
  /-- What is changed by one. -/
  | stepped

namespace Slot

/-- The level that the printer calls for. -/
def level : Slot → Level
  | .whole level _ => level
  | .left chain => .chain chain
  | .subject | .stepped => .suffixed

/-- Tokens that are an expression in a place, in front of what makes it that place. -/
def Holds : Slot → (used : List Token) → (value : Expr) → (next : List Token) → Prop
  | .whole level _, used, value, next => Derives (.expression level) used value next
  | .left chain, used, value, next => Derives (.operations chain) used value next
  | .subject, used, value, next => Derives .accesses used value next ∧ ¬ EndsAccesses next
  | .stepped, used, value, next =>
    Derives (.expression .suffixed) used value next ∧
      ∃ op, next.head?.bind Rules.trailing? = some op

end Slot

/-- Tokens that are an expression in parentheses. -/
def Grouped (used : List Token) (value : Expr) (next : List Token) : Prop :=
  ∃ opening newlines₁ inner newlines₂ closing,
    used = opening :: (newlines₁ ++ inner ++ newlines₂ ++ [closing]) ∧
    opening.kind = .mark .openParen ∧ Newlines newlines₁ ∧
    Derives (.expression .assignment) inner value (newlines₂ ++ closing :: next) ∧
    Newlines newlines₂ ∧ closing.kind = .mark .closeParen

/-- How tight an expression of a form is without parentheses. -/
def Tight : (form : Form) → List Token → form.Tree → List Token → Prop
  | .expression .assignment, _, _, _ => True
  | .expression .ternary, used, value, next =>
    Grouped used value next ∨ Level.ternary.rank ≤ value.level.rank
  | .expression (.chain chain), used, value, next | .operations chain, used, value, next =>
    Grouped used value next ∨ (Level.chain chain).rank ≤ value.level.rank
  | .expression .unary, used, value, next =>
    (Grouped used value next ∨ Level.unary.rank ≤ value.level.rank) ∧
      (value.endsInStep = true ∨ Level.unary.Ends next ∧ EndsAccesses next)
  | .expression .suffixed, used, value, next =>
    EndsAccesses next ∧
      (Grouped used value next ∨ Level.suffixed.rank ≤ value.level.rank ∨
        value.level = .unary ∧ Level.unary.Ends next)
  | .accesses, used, value, next | .expression .primary, used, value, next =>
    Grouped used value next ∨ Level.suffixed.rank ≤ value.level.rank ∨
      value.level = .unary ∧ Level.unary.Ends next ∧ EndsAccesses next
  | .function _, _, value, _ => Level.suffixed.rank ≤ value.level.rank
  | _, _, _, _ => True

/-- An operation is at the level of its chain. -/
theorem Chain.level_operation
    {chain : Chain}
    {sign : Token}
    {operation : Position → Expr → Expr → Expr}
    (found : chain.operation? sign = some operation)
    (position : Position)
    (left right : Expr) :
    (operation position left right).level = .chain chain := by
  cases chain <;>
    simp only [Chain.operation?, Rules.logicalOperator?, Rules.equalityOperator?,
      Rules.comparisonOperator?, Rules.sumOperator?, Rules.productOperator?] at found <;>
    repeat' split at found
  all_goals cases found
  all_goals rfl

/-- An operation in front of its operand is a unary one, which ends as its operand does. -/
theorem level_of_leading
    {sign : Token}
    {operation : Expr → Expr}
    (found : Rules.leading? sign = some operation)
    (operand : Expr) :
    (operation operand).level = .unary ∧
      (operation operand).endsInStep = operand.endsInStep := by
  obtain ⟨op, rfl⟩ | ⟨op, rfl⟩ := exists_of_leading? found <;> exact ⟨rfl, rfl⟩

/-- Without parentheses an expression is as tight as its form. -/
theorem Derives.tight
    {form : Form}
    {used next : List Token}
    {tree : form.Tree}
    (derives : Derives form used tree next) :
    Tight form used tree next := by
  induction derives with
  | choice => exact .inr (Nat.le_refl _)
  | unchosen _ _ tight => exact tight.imp_right (Nat.le_trans (by decide))
  | @operand chain used next value _ tight =>
    cases chain with
    | product => exact tight.1.imp_right (Nat.le_trans (by decide))
    | _ => exact tight.imp_right (Nat.le_trans (by decide))
  | operation _ found _ _ _ =>
    refine .inr (Nat.le_of_eq ?_)
    rw [Chain.level_operation found]
  | chain _ _ tight => exact tight
  | leading found _ tight =>
    obtain ⟨level, ends⟩ := level_of_leading found _
    refine ⟨.inr (Nat.le_of_eq (by rw [level])), ?_⟩
    rw [ends]
    exact tight.2
  | trailing => exact ⟨.inr (Nat.le_refl _), .inl rfl⟩
  | unstepped _ ends tight =>
    refine ⟨tight.2.imp_right ?_, .inr ⟨ends, tight.1⟩⟩
    rintro (above | ⟨same, _⟩)
    · exact Nat.le_trans (by decide) above
    · exact Nat.le_of_eq (by rw [same])
  | suffixed _ ends tight =>
    exact ⟨ends, tight.imp_right (Or.imp_right fun both => ⟨both.1, both.2.1⟩)⟩
  | subject _ tight => exact tight
  | call | member | index => exact .inr (.inl (Nat.le_refl _))
  | name | number | text | truth | falsehood | undefined | array | object =>
    exact .inr (.inl (Level.rank_le_primary .suffixed))
  | @typeof _ _ _ operand _ _ tight =>
    right
    cases steps : operand.endsInStep with
    | true =>
      left
      rw [Expr.level, if_pos steps]
      exact Level.rank_le_primary .suffixed
    | false =>
      right
      have ends := tight.2
      rw [steps] at ends
      refine ⟨?_, ends.resolve_left Bool.false_ne_true⟩
      rw [Expr.level, steps, if_neg Bool.false_ne_true]
  | lambda _ tight => exact .inr (.inl tight)
  | grouped openingKind newlinesBefore valueDerives newlinesBehind closingKind =>
    exact .inl ⟨_, _, _, _, _, rfl, openingKind, newlinesBefore, valueDerives, newlinesBehind,
      closingKind⟩
  | calledOnTheSpot => exact Nat.le_refl _
  | betweenColons | named | unnamed => exact Level.rank_le_primary .suffixed
  | _ => trivial

/-! ## Levels at any place -/

theorem endsInStep_relabel
    (change : Position → Position)
    (value : Expr) :
    (value.relabel change).endsInStep = value.endsInStep := by
  match value with
  | .step _ .behind _ _ => rfl
  | .step _ .before _ operand | .unary _ _ operand => exact endsInStep_relabel change operand
  | .number .. | .text .. | .bool .. | .undefined .. | .null .. | .name .. | .array ..
  | .object .. | .binary .. | .logical .. | .assign .. | .declare .. | .call .. | .member ..
  | .index .. | .ternary .. | .typeof .. | .function .. => rfl

theorem level_relabel
    (change : Position → Position)
    (value : Expr) :
    (value.relabel change).level = value.level := by
  cases value with
  | typeof position operand => rw [Expr.relabel, Expr.level, Expr.level, endsInStep_relabel]
  | _ => rfl

/-- Trees that are the same but for positions are at the same level. -/
theorem level_of_erase_eq
    {value printed : Expr}
    (same : value.erase = printed.erase) :
    value.level = printed.level := by
  rw [← level_relabel (fun _ => .start) value, ← level_relabel (fun _ => .start) printed]
  exact congrArg Expr.level same

/-- Where the printer puts an expression in parentheses, whatever is read as it there stands in
parentheses. -/
theorem Slot.Holds.grouped
    {slot : Slot}
    {used next : List Token}
    {value : Expr}
    (holds : slot.Holds used value next)
    (looser : value.level.rank < slot.level.rank) :
    Grouped used value next := by
  cases slot with
  | whole level loose =>
    have tight := Derives.tight holds
    cases level with
    | assignment => exact absurd looser (Nat.not_lt_zero _)
    | ternary | chain => exact tight.resolve_right (Nat.not_le_of_lt looser)
    | unary => exact tight.1.resolve_right (Nat.not_le_of_lt looser)
    | suffixed | primary => exact absurd loose (by decide)
  | left chain => exact (Derives.tight holds).resolve_right (Nat.not_le_of_lt looser)
  | subject =>
    rcases Derives.tight holds.1 with grouped | above | ⟨_, _, ends⟩
    · exact grouped
    · exact absurd above (Nat.not_le_of_lt looser)
    · exact absurd ends holds.2
  | stepped =>
    obtain ⟨op, steps⟩ := holds.2
    rcases (Derives.tight holds.1).2 with grouped | above | ⟨_, ends⟩
    · exact grouped
    · exact absurd above (Nat.not_le_of_lt looser)
    · rw [Level.Ends, steps] at ends
      cases ends

/-! ## Printing and reading -/

/-- Reading undoes printing: the tokens of a printable program, wherever they are placed, are read
as that program up to positions, and the printable programs are the ones that some source is read
as.  The parentheses that the printer adds cannot be left out: whatever is read as the expression
in its place has parentheses around it. -/
theorem ofTokens_tokens_and_image
    (program : Program) :
    (program.Printable → ∀ tokens,
      (Program.tokensAhead tokens).map Token.erase = program.tokens →
      ∃ parsed : Program, Program.ofTokens tokens = .ok parsed ∧ parsed.erase = program.erase) ∧
    (program.Printable ↔ ∃ source, ∃ parsed : Program,
      Program.ofSource source = .ok parsed ∧ parsed.erase = program.erase) ∧
    ∀ (slot : Slot) (printed value : Expr) (used next : List Token),
      placed slot.level printed printed.tokens ≠ printed.tokens →
      slot.Holds used value next → value.erase = printed.erase →
      Grouped used value next := by
  refine ⟨fun printable tokens => ofTokens_of_tokens printable, ⟨fun printable => ?_, ?_⟩, ?_⟩
  · exact ⟨source program, ofSource_source printable⟩
  · rintro ⟨source, parsed, ok, erased⟩
    exact printable_of_ofSource ok erased
  · intro slot printed value used next added holds same
    refine holds.grouped ?_
    rw [level_of_erase_eq same]
    rcases Nat.lt_or_ge printed.level.rank slot.level.rank with looser | tight
    · exact looser
    · exact absurd (placed_of_le tight _) added

/-- `out fn:: (typeof -a).if;` is read as the exported function that is called on the spot. -/
theorem ofTokens_tokens_and_image_of_call :
    ∃ parsed : Program,
      Program.ofTokens
        [{ kind := .keyword .outWord, lexeme := "out", position := ⟨0, 0, 0⟩ },
         { kind := .keyword .fnWord, lexeme := "fn", position := ⟨0, 4, 4⟩ },
         { kind := .mark .colon, lexeme := ":", position := ⟨0, 6, 6⟩ },
         { kind := .mark .colon, lexeme := ":", position := ⟨0, 7, 7⟩ },
         { kind := .mark .openParen, lexeme := "(", position := ⟨0, 9, 9⟩ },
         { kind := .keyword .typeofWord, lexeme := "typeof", position := ⟨0, 10, 10⟩ },
         { kind := .operator, lexeme := "-", position := ⟨0, 17, 17⟩ },
         { kind := .identifier, lexeme := "a", position := ⟨0, 18, 18⟩ },
         { kind := .mark .closeParen, lexeme := ")", position := ⟨0, 19, 19⟩ },
         { kind := .mark .dot, lexeme := ".", position := ⟨0, 20, 20⟩ },
         { kind := .keyword .ifWord, lexeme := "if", position := ⟨0, 21, 21⟩ },
         { kind := .mark .semicolon, lexeme := ";", position := ⟨0, 23, 23⟩ },
         { kind := .eof, lexeme := "", position := ⟨0, 24, 24⟩ }] = .ok parsed ∧
      parsed.erase =
        [.expr .start (.call .start (.function .start none true []
          [.returnValue .start (.member .start (.typeof .start (.unary .start .minus
            (.name .start "a"))) "if")]) [])] := by
  have printable : Program.Printable
      [.expr .start (.call .start (.function .start none true []
        [.returnValue .start (.member .start (.typeof .start (.unary .start .minus
          (.name .start "a"))) "if")]) [])] :=
    ⟨⟨⟨by decide +kernel, by decide +kernel⟩, by decide +kernel⟩, trivial⟩
  exact (ofTokens_tokens_and_image _).1 printable _ rfl

end Grammar
end TinyScript
