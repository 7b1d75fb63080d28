import TinyScript.Proofs.Grammar.Printer

/-!
# Levels of expressions

An expression of a tight level is one of a looser level too, as long as nothing
behind it goes on with it.  What may stand behind an expression is therefore a
matter of the level that is called for.
-/

namespace TinyScript
namespace Grammar

/-! ## Levels -/

/-- Nothing ahead continues an expression of a level, once tighter levels are done. -/
def Level.Ends : Level → List Token → Prop
  | .assignment, next => EndsAssignment next
  | .ternary, next => kindAhead next ≠ .mark .question
  | .chain group, next => next.head?.bind group.operation? = none
  | .unary, next => next.head?.bind Rules.trailing? = none
  | .suffixed, next => EndsAccesses next
  | .primary, _ => True

/-- Nothing ahead continues an expression of a level or of a tighter one. -/
def Follows (level : Level) (next : List Token) : Prop :=
  ∀ tight : Level, level.rank ≤ tight.rank → tight.Ends next

/-- The next tighter level; the tightest one has none but itself. -/
def Level.tighter : Level → Level
  | .assignment => .ternary
  | .ternary => .chain .logical
  | .chain group => group.operand
  | .unary => .suffixed
  | .suffixed | .primary => .primary

/-- Levels of the same rank are the same. -/
theorem Level.eq_of_rank_eq
    {left right : Level}
    (same : left.rank = right.rank) :
    left = right := by
  rcases left with _ | _ | (_ | _ | _ | _ | _) | _ | _ | _ <;>
    rcases right with _ | _ | (_ | _ | _ | _ | _) | _ | _ | _ <;>
    first | rfl | cases same

/-- Primary expressions are the tightest ones. -/
theorem Level.rank_le_primary
    (level : Level) :
    level.rank ≤ Level.primary.rank := by
  rcases level with _ | _ | (_ | _ | _ | _ | _) | _ | _ | _ <;> decide

/-- The next tighter level has the next rank. -/
theorem Level.rank_tighter
    {level : Level}
    (loose : level.rank < Level.primary.rank) :
    level.tighter.rank = level.rank + 1 := by
  rcases level with _ | _ | (_ | _ | _ | _ | _) | _ | _ | _
  case primary => exact absurd loose (Nat.lt_irrefl _)
  all_goals rfl

/-- The operands of a chain are one rank tighter than the chain. -/
theorem Chain.rank_operand
    (chain : Chain) :
    chain.operand.rank = (Level.chain chain).rank + 1 := by
  cases chain <;> rfl

/-- What may follow a loose expression may follow a tight one. -/
theorem Follows.of_le
    {loose tight : Level}
    {next : List Token}
    (follows : Follows loose next)
    (le : loose.rank ≤ tight.rank) :
    Follows tight next :=
  fun level above => follows level (Nat.le_trans le above)

/-- What may follow an expression does not go on with it. -/
theorem Follows.ends
    {level : Level}
    {next : List Token}
    (follows : Follows level next) :
    level.Ends next :=
  follows level (Nat.le_refl _)

/-- An expression of the next tighter level is one of this level if nothing continues it. -/
theorem Derives.of_tighter
    {level : Level}
    {used next : List Token}
    {value : Expr}
    (derives : Derives (.expression level.tighter) used value next)
    (ends : level.Ends next) :
    Derives (.expression level) used value next := by
  cases level with
  | assignment => exact .unassigned derives ends
  | ternary => exact .unchosen derives ends
  | chain chain => exact .chain (.operand derives) ends
  | unary => exact .unstepped derives ends
  | suffixed => exact .suffixed (.subject derives) ends
  | primary => exact derives

/-- A tight expression is a loose one if nothing continues it. -/
theorem Derives.loosen
    {loose tight : Level}
    {used next : List Token}
    {value : Expr}
    (derives : Derives (.expression tight) used value next)
    (le : loose.rank ≤ tight.rank)
    (follows : Follows loose next) :
    Derives (.expression loose) used value next := by
  -- Induction on how far the levels are apart.
  obtain ⟨distance, apart⟩ := Nat.exists_eq_add_of_le le
  induction distance generalizing loose with
  | zero =>
    rw [Level.eq_of_rank_eq apart] at derives
    exact derives
  | succ distance ih =>
    have bound := Level.rank_le_primary tight
    have step : loose.tighter.rank = loose.rank + 1 := Level.rank_tighter (by omega)
    have tightened : Derives (.expression loose.tighter) used value next :=
      ih (by omega) (follows.of_le (by omega)) (by omega)
    exact tightened.of_tighter follows.ends

/-! ## What may stand behind an expression -/

/-- What may follow the next tighter level and does not go on with this one may follow it. -/
theorem Follows.loosen
    {level : Level}
    {next : List Token}
    (follows : Follows level.tighter next)
    (ends : level.Ends next) :
    Follows level next := by
  intro tight above
  rcases Nat.eq_or_lt_of_le above with same | below
  · rw [← Level.eq_of_rank_eq same]
    exact ends
  · have bound := Level.rank_le_primary tight
    refine follows tight ?_
    rw [Level.rank_tighter (by omega)]
    exact below

theorem follows_suffixed
    {next : List Token}
    (ends : EndsAccesses next) :
    Follows .suffixed next := by
  refine Follows.loosen (fun tight above => ?_) ends
  rw [← Level.eq_of_rank_eq (Nat.le_antisymm above tight.rank_le_primary)]
  trivial

/-- Behind a value without operators, calls and accesses stands none of them. -/
theorem follows_logical
    {next : List Token}
    (noOperation : ∀ chain : Chain, next.head?.bind chain.operation? = none)
    (noStep : next.head?.bind Rules.trailing? = none)
    (ends : EndsAccesses next) :
    Follows (.chain .logical) next := by
  have unary : Follows .unary next := Follows.loosen (follows_suffixed ends) noStep
  have product : Follows (.chain .product) next := Follows.loosen unary (noOperation _)
  have sum : Follows (.chain .sum) next := Follows.loosen product (noOperation _)
  have comparison : Follows (.chain .comparison) next := Follows.loosen sum (noOperation _)
  have equality : Follows (.chain .equality) next := Follows.loosen comparison (noOperation _)
  exact Follows.loosen equality (noOperation _)

/-- Only operators make operations. -/
theorem Chain.operation?_of_mark
    {mark : Mark}
    {token : Token}
    (kind : token.kind = .mark mark)
    (chain : Chain) :
    chain.operation? token = none := by
  cases chain <;>
    simp [Chain.operation?, Rules.logicalOperator?, Rules.equalityOperator?,
      Rules.comparisonOperator?, Rules.sumOperator?, Rules.productOperator?, kind]

/-- Behind a mark that neither calls nor accesses no operation goes on. -/
theorem follows_logical_of_mark
    {token : Token}
    {mark : Mark}
    (kind : token.kind = .mark mark)
    (noAccess : mark ≠ .openParen ∧ mark ≠ .dot ∧ mark ≠ .openBracket)
    (next : List Token) :
    Follows (.chain .logical) (token :: next) := by
  refine follows_logical (Chain.operation?_of_mark kind) ?_ ⟨?_, ?_, ?_⟩
  · simp [Rules.trailing?, kind]
  · simpa [kind] using noAccess.1
  · simpa [kind] using noAccess.2.1
  · simpa [kind] using noAccess.2.2

/-- The marks behind which no expression goes on. -/
def endsValue : Token.Kind → Bool
  | .mark .closeParen | .mark .closeBracket | .mark .closeBrace | .mark .openBrace
  | .mark .comma | .mark .semicolon => true
  | _ => false

/-- A declaration goes on with a colon. -/
theorem declared?_of_kind
    {token : Token}
    (noColon : token.kind ≠ .mark .colon)
    (next : List Token) :
    declared? (token :: next) = none := by
  unfold declared?
  split
  · rename_i same
    cases same
    rw [if_neg fun both => noColon both.1]
  · rfl

/-- What ends a value may follow expressions of every level. -/
theorem follows_of_endsValue
    {next : List Token}
    (ends : endsValue (kindAhead next) = true)
    (level : Level) :
    Follows level next := by
  cases next with
  | nil => cases ends
  | cons token next =>
    rw [kindAhead_cons] at ends
    cases kind : token.kind with
    | mark mark =>
      rw [kind] at ends
      have others : mark ≠ .openParen ∧ mark ≠ .dot ∧ mark ≠ .openBracket ∧ mark ≠ .question ∧
          mark ≠ .colon := by
        refine ⟨?_, ?_, ?_, ?_, ?_⟩ <;> rintro rfl <;> cases ends
      obtain ⟨noCall, noMember, noIndex, noQuestion, noColon⟩ := others
      have logical := follows_logical_of_mark kind ⟨noCall, noMember, noIndex⟩ next
      have ternary : Follows .ternary (token :: next) :=
        Follows.loosen logical (by simpa [Level.Ends, kind] using noQuestion)
      have assignment : Follows .assignment (token :: next) := by
        refine Follows.loosen ternary ⟨?_, ?_, declared?_of_kind ?_ next⟩
        · simp [kind]
        · simp [Rules.compound?, kind]
        · simpa [kind] using noColon
      exact assignment.of_le (Nat.zero_le _)
    | _ => simp [kind, endsValue] at ends

/-- A question mark may follow a chain of logical operators. -/
theorem follows_of_question
    {token : Token}
    (kind : token.kind = .mark .question)
    (next : List Token) :
    Follows (.chain .logical) (token :: next) :=
  follows_logical_of_mark kind (by decide) next

/-- A colon may follow a ternary expression. -/
theorem follows_of_colon
    {token : Token}
    (kind : token.kind = .mark .colon)
    (next : List Token) :
    Follows .ternary (token :: next) :=
  Follows.loosen (follows_logical_of_mark kind (by decide) next) (by simp [Level.Ends, kind])

/-- The sign of an assignment may follow its target. -/
theorem follows_of_assign
    {token : Token}
    (kind : token.kind = .sign .assign)
    (next : List Token) :
    Follows .ternary (token :: next) := by
  refine Follows.loosen (follows_logical (fun chain => ?_) ?_ ⟨?_, ?_, ?_⟩) ?_
  · cases chain <;>
      simp [Chain.operation?, Rules.logicalOperator?, Rules.equalityOperator?,
        Rules.comparisonOperator?, Rules.sumOperator?, Rules.productOperator?, kind]
  all_goals simp [Level.Ends, Rules.trailing?, kind]

/-- The sign of a compound assignment may follow its target. -/
theorem follows_of_compound
    {token : Token}
    {op : Arithmetic}
    (compound : Rules.compound? token = some op)
    (next : List Token) :
    Follows .ternary (token :: next) := by
  unfold Rules.compound? at compound
  split at compound
  case h_5 => cases compound
  all_goals
    rename_i kind
    refine Follows.loosen (follows_logical (fun chain => ?_) ?_ ⟨?_, ?_, ?_⟩) ?_
    · cases chain <;>
        simp [Chain.operation?, Rules.logicalOperator?, Rules.equalityOperator?,
          Rules.comparisonOperator?, Rules.sumOperator?, Rules.productOperator?, kind]
    all_goals simp [Level.Ends, Rules.trailing?, kind]

/-- At the end of the source nothing goes on. -/
theorem follows_nil
    (level : Level) :
    Follows level [] := by
  intro tight _
  cases tight with
  | assignment => exact ⟨by simp, rfl, rfl⟩
  | ternary => simp [Level.Ends]
  | suffixed => exact ⟨by simp, by simp, by simp⟩
  | chain | unary => rfl
  | primary => trivial

/-- A step may follow its operand. -/
theorem follows_of_trailing
    {token : Token}
    {op : StepOp}
    (stepOperation : Rules.trailing? token = some op)
    (next : List Token) :
    Follows .suffixed (token :: next) := by
  unfold Rules.trailing? at stepOperation
  split at stepOperation
  case h_1 kind => exact follows_suffixed ⟨by simp [kind], by simp [kind], by simp [kind]⟩
  case h_2 kind => exact follows_suffixed ⟨by simp [kind], by simp [kind], by simp [kind]⟩
  case h_3 => cases stepOperation

/-- An operator between two operands belongs to one level. -/
theorem Chain.eq_of_operation?
    {chain other : Chain}
    {token : Token}
    {operation operation' : Position → Expr → Expr → Expr}
    (found : chain.operation? token = some operation)
    (found' : other.operation? token = some operation') :
    chain = other := by
  cases chain <;> cases other <;> first
    | rfl
    | simp only [Chain.operation?, Rules.logicalOperator?, Rules.equalityOperator?,
        Rules.comparisonOperator?, Rules.sumOperator?, Rules.productOperator?] at found found'
      grind

/-- No operator stands both between and behind operands. -/
theorem Chain.trailing?_of_operation?
    {chain : Chain}
    {token : Token}
    {operation : Position → Expr → Expr → Expr}
    (found : chain.operation? token = some operation) :
    Rules.trailing? token = none := by
  unfold Rules.trailing?
  cases chain <;>
    simp only [Chain.operation?, Rules.logicalOperator?, Rules.equalityOperator?,
      Rules.comparisonOperator?, Rules.sumOperator?, Rules.productOperator?] at found <;>
    grind

/-- An operator may follow the operand on its left. -/
theorem follows_of_operation
    {chain : Chain}
    {token : Token}
    {operation : Position → Expr → Expr → Expr}
    (found : chain.operation? token = some operation)
    (next : List Token) :
    Follows chain.operand (token :: next) := by
  have noMark (mark : Mark) : token.kind ≠ .mark mark := by
    intro kind
    rw [Chain.operation?_of_mark kind] at found
    cases found
  intro tight above
  rw [Chain.rank_operand] at above
  cases tight with
  | assignment => exact absurd above (Nat.not_succ_le_zero _)
  | ternary => exact noMark _
  | chain other =>
    cases foundOther : other.operation? token with
    | none => exact foundOther
    | some _ =>
      rw [Chain.eq_of_operation? found foundOther] at above
      exact absurd above (Nat.not_succ_le_self _)
  | unary => exact Chain.trailing?_of_operation? found
  | suffixed => exact ⟨noMark _, noMark _, noMark _⟩
  | primary => trivial

/-! ## A program of one statement -/

/-- One statement is a run of statements in front of what ends one. -/
theorem Derives.statements_of_statement
    {used next : List Token}
    {statement : Stmt}
    (derives : Derives .statement used statement next)
    (ends : kindAhead next = .mark .closeBrace ∨ kindAhead next = .eof) :
    Derives .statements used [statement] next := by
  have statements : Derives .statements (used ++ [] ++ []) [statement] next :=
    .moreStatements derives Separators.nil (.noStatements ends)
  simpa using statements

/-- A statement alone is a program. -/
theorem Derives.program_of_statement
    {used : List Token}
    {statement : Stmt}
    (derives : Derives .bareStatement used statement []) :
    Derives .program used [statement] [] :=
  .program Separators.nil ((Derives.unended derives (by simp)).statements_of_statement (.inr rfl))

/-- An expression alone is a program. -/
theorem Derives.program_of_value
    {level : Level}
    {used : List Token}
    {value : Expr}
    (derives : Derives (.expression level) used value []) :
    Derives .program used [.expr value.position value] [] :=
  .program_of_statement (.expressionStatement (derives.loosen (Nat.zero_le _) (follows_nil _)))

end Grammar
end TinyScript
