import Mathlib.Data.List.TakeWhile
import TinyScript.Proofs.Grammar.Agreement
import TinyScript.Proofs.Grammar.Completeness

/-!
# Any list of tokens is read to its first end

A parser that holds a whole list of tokens and a place in it never comes past the first token that
ends the source, and every statement and expression it finds takes it further.  So it needs no more
rounds, nested no deeper, than there are tokens, it sees no token beyond the list, and what it finds
depends on the tokens up to the first end only (`ofTokens_total`).
-/

namespace TinyScript
namespace Grammar

open Parse

/-! ## Depth -/

/-- Rules nested so deep, whatever the rules at the bottom are. -/
def nested (bottom : Rules) : (depth : Nat) → Rules
  | 0 => bottom
  | depth + 1 => (nested bottom depth).next

/-- The fault of a value that is missing at the end of a source. -/
def missing (stop : Token) : Diagnostic where
  stage := .parser
  message := "unexpected end of input"
  position := some stop.position
  width := stop.width

section Nothing

variable {rules : Rules} {stop : Token} (stopEnds : stop.kind = .eof)

include stopEnds

theorem refuseUnexpected_stop
    {α : Type}
    (ahead : List Token) :
    (refuseUnexpected stop : Parse α) stop ahead = .error (missing stop) := by
  rw [refuseUnexpected, refuse_apply, stopEnds]
  rfl

theorem primary_nil :
    rules.primary stop [] = .error (missing stop) := by
  rw [Rules.primary, peek_bind]
  simp only [List.headD_nil, stopEnds]
  exact refuseUnexpected_stop stopEnds []

theorem unaryForm_nil :
    rules.unaryForm stop [] = .error (missing stop) := by
  have noLeading : Rules.leading? stop = none := by simp [Rules.leading?, stopEnds]
  rw [Rules.unaryForm, peek_bind]
  simp only [List.headD_nil, noLeading]
  exact bind_of_error (bind_of_error (primary_nil stopEnds) _) _

theorem ternaryForm_nil :
    rules.ternaryForm stop [] = .error (missing stop) := by
  have product : rules.product stop [] = .error (missing stop) :=
    bind_of_error (unaryForm_nil stopEnds) _
  have comparison : rules.comparison stop [] = .error (missing stop) :=
    bind_of_error (bind_of_error product _) _
  have logical : rules.logical stop [] = .error (missing stop) :=
    bind_of_error (bind_of_error comparison _) _
  exact bind_of_error logical _

theorem assignment_nil :
    rules.assignment stop [] = .error (missing stop) :=
  bind_of_error (ternaryForm_nil stopEnds) _

theorem statementForm_nil :
    rules.statementForm stop [] = .error (missing stop) := by
  refine bind_of_error ?_ _
  rw [Rules.bareStatement, peek_bind]
  simp only [List.headD_nil, stopEnds]
  exact bind_of_error (assignment_nil stopEnds) _

end Nothing

namespace Seam

variable {seam : Seam}

/-- Where no tokens are ahead, what agrees with one parser agrees with any that does the same. -/
theorem Agrees.of_nil
    {α : Type}
    {parser other other' : Parse α}
    (agrees : seam.Agrees 1 parser other)
    (same : other seam.stop [] = other' seam.stop []) :
    seam.Agrees 1 parser other' := by
  intro ahead short endless begun
  obtain rfl := List.length_eq_zero_iff.1 (Nat.lt_one_iff.1 short)
  rw [← same]
  exact agrees short endless begun

/-- Rules of which at least one is nested find nothing where no tokens are ahead. -/
theorem rulesAgree_empty
    (bottom : Rules) :
    seam.RulesAgree 1 bottom.next Rules.empty := by
  have none : seam.RulesAgree 0 bottom Rules.empty :=
    { expression := fun _ short => absurd short (Nat.not_lt_zero _)
      ternary := fun _ short => absurd short (Nat.not_lt_zero _)
      unary := fun _ short => absurd short (Nat.not_lt_zero _)
      statement := fun _ short => absurd short (Nat.not_lt_zero _)
      branch := fun _ short => absurd short (Nat.not_lt_zero _)
      moves := empty_sound.statement.moves rfl seam.ends }
  have one := rulesAgree_next empty_sound none
  have refusal {α : Type} : _ = (refuseUnexpected seam.stop : Parse α) seam.stop [] :=
    (refuseUnexpected_stop seam.ends []).symm
  exact
    { expression := one.expression.of_nil ((assignment_nil seam.ends).trans refusal)
      ternary := one.ternary.of_nil ((ternaryForm_nil seam.ends).trans refusal)
      unary := one.unary.of_nil ((unaryForm_nil seam.ends).trans refusal)
      statement := one.statement.of_nil ((statementForm_nil seam.ends).trans refusal)
      branch := by
        intro ahead short _ begun
        obtain rfl := List.length_eq_zero_iff.1 (Nat.lt_one_iff.1 short)
        cases begun
      moves := none.moves }

/-- However deep they are nested beyond that, rules do the same on so few tokens. -/
theorem rulesAgree_upTo
    (bottom : Rules)
    (count : Nat) :
    seam.RulesAgree (count + 1) (nested bottom (count + 1)) (Rules.upTo count) := by
  induction count with
  | zero => exact rulesAgree_empty bottom
  | succ count ih => exact rulesAgree_next (upTo_sound count) ih

end Seam

/-! ## Whole lists -/

/-- A list of tokens, with one that ends the source supplied if the last of them is none. -/
def completed (tokens : List Token) : List Token :=
  if tokens.getLast?.map (·.kind) = some .eof then tokens
  else
    tokens ++
      [{ kind := .eof
         lexeme := ""
         position := (tokens.getLast?.map (·.position)).getD .start }]

/-- The completed list is the tokens before the first end, that end, and whatever follows. -/
theorem exists_completed
    (tokens : List Token) :
    ∃ beyond,
      completed tokens = Program.tokensAhead tokens ++ Program.endToken tokens :: beyond := by
  cases found : tokens.find? (·.kind == .eof) with
  | some stop =>
    obtain ⟨stopEnds, before, behind, rfl, others⟩ := List.find?_eq_some_iff_append.1 found
    have endless : Endless before := fun token mem => by simpa using others token mem
    rw [tokensAhead_append endless (by simpa using stopEnds),
      endToken_append endless (by simpa using stopEnds), completed]
    split
    · exact ⟨behind, rfl⟩
    · exact ⟨behind ++ _, List.append_assoc ..⟩
  | none =>
    have endless : Endless tokens := fun token mem => by
      simpa using List.find?_eq_none.1 found token mem
    have noEnd : tokens.getLast?.map (·.kind) ≠ some .eof := by
      intro ends
      obtain ⟨last, isLast, kind⟩ := Option.map_eq_some_iff.1 ends
      exact endless last (List.mem_of_getLast? isLast) kind
    have ahead : Program.tokensAhead tokens = tokens :=
      List.takeWhile_eq_self_iff.2 fun token mem => by simpa using endless token mem
    rw [ahead, completed, if_neg noEnd, Program.endToken, found]
    exact ⟨[], rfl⟩

/-- From a place in a completed list, a parser refuses a token up to the first end, or it comes to a
later place that is not beyond that end. -/
def GoesOn
    {α : Type}
    (outside : Token)
    (tokens : List Token)
    (parser : Parse α)
    (current : Nat) : Prop :=
  (∃ diagnostic, parser outside ((completed tokens).drop current) = .error diagnostic ∧
    Blames (Program.endToken tokens :: Program.tokensAhead tokens) diagnostic) ∨
  ∃ result later,
    parser outside ((completed tokens).drop current) =
      .ok (result, (completed tokens).drop later) ∧
    current < later ∧ later ≤ (Program.tokensAhead tokens).length

/-- A completed list from a place before its first end on is the tokens from there to the end, and
the rest. -/
theorem Seam.drop_whole
    (seam : Seam)
    {ahead : List Token}
    {current : Nat}
    (le : current ≤ ahead.length) :
    (seam.whole ahead).drop current = seam.whole (ahead.drop current) :=
  List.drop_append_of_le_length le

/-- What agrees with a faithful parser that takes at least one token goes on. -/
theorem goesOn_of_agrees
    {α : Type}
    {seam : Seam}
    {tokens : List Token}
    (isWhole : completed tokens = seam.whole (Program.tokensAhead tokens))
    (isStop : seam.stop = Program.endToken tokens)
    {parser other : Parse α}
    (agrees : seam.Agrees ((Program.tokensAhead tokens).length + 1) parser other)
    (faithful : Faithful (Program.endToken tokens :: Program.tokensAhead tokens) seam.stop other)
    (moves : ∀ {ahead rest result}, other seam.stop ahead = .ok (result, rest) →
      rest.length < ahead.length)
    {current : Nat}
    (le : current ≤ (Program.tokensAhead tokens).length) :
    GoesOn seam.outside tokens parser current := by
  have suffix := List.drop_suffix current (Program.tokensAhead tokens)
  have endless : Endless (Program.tokensAhead tokens) :=
    fun _ isAhead => kind_ne_eof_of_mem_tokensAhead isAhead
  have alike := agrees (Nat.lt_succ_of_le suffix.length_le) (endless.suffix suffix) trivial
  have admits := faithful ((Program.tokensAhead tokens).drop current)
    (by rw [isStop]; exact List.cons_subset_cons _ suffix.subset)
  unfold GoesOn
  rw [isWhole, seam.drop_whole le]
  generalize parser seam.outside _ = outcome at alike
  cases read : other seam.stop ((Program.tokensAhead tokens).drop current) with
  | error diagnostic =>
    rw [read] at alike admits
    cases alike
    exact .inl ⟨diagnostic, rfl, admits⟩
  | ok found =>
    obtain ⟨result, rest⟩ := found
    have shorter := moves read
    rw [read] at alike
    cases alike with
    | read _ left =>
      have left := left.trans suffix
      refine .inr ⟨result, (Program.tokensAhead tokens).length - rest.length, ?_, ?_, ?_⟩
      · rw [seam.drop_whole (Nat.sub_le _ _), ← List.suffix_iff_eq_drop.1 left]
      · rw [List.length_drop] at shorter
        omega
      · exact Nat.sub_le _ _

/-- A program that is read takes all the tokens before the first end. -/
theorem statements_upTo
    (tokens : List Token) :
    Rules.statements (Rules.upTo (Program.tokensAhead tokens).length).statement (·.kind == .eof)
      (Program.endToken tokens) (Program.tokensAhead tokens) =
        (Program.ofTokens tokens).map (·, []) := by
  cases accepted : Program.ofTokens tokens with
  | ok program => exact statements_of_derives (ofTokens_sound accepted)
  | error diagnostic =>
    unfold Program.ofTokens at accepted
    dsimp only at accepted
    generalize Rules.statements _ _ _ _ = outcome at accepted
    cases outcome with
    | error => cases accepted; rfl
    | ok => cases accepted

/-- Any list of tokens is read, or refused, by rules nested no deeper than there are tokens up to
its first end; one is supplied if the last token is none.  Whatever would be seen beyond the list,
and whatever more deeply nested rules would do, the whole list gives the program of the tokens up to
the first end, and is then at that end.  From every place up to there each statement and each
expression goes on to a later place that is not beyond the end, or it is refused for one of these
tokens, as the program is.  What follows the first end does not matter. -/
theorem ofTokens_total
    (tokens : List Token)
    (outside : Token)
    (bottom : Rules) :
    let ahead := Program.tokensAhead tokens
    let stop := Program.endToken tokens
    let rules := nested bottom (ahead.length + 1)
    (∃ beyond, completed tokens = ahead ++ stop :: beyond) ∧ Endless ahead ∧ stop.kind = .eof ∧
    Rules.statements rules.statement (·.kind == .eof) outside (completed tokens) =
      (Program.ofTokens tokens).map (·, (completed tokens).drop ahead.length) ∧
    (∀ current ≤ ahead.length,
      GoesOn outside tokens rules.statement current ∧
      GoesOn outside tokens rules.expression current) ∧
    (∀ beyond, Program.ofTokens (ahead ++ stop :: beyond) = Program.ofTokens tokens) ∧
    ∀ diagnostic, Program.ofTokens tokens = .error diagnostic →
      Blames (stop :: ahead) diagnostic := by
  intro ahead stop rules
  obtain ⟨beyond, split⟩ := exists_completed tokens
  have stopEnds := endToken_kind tokens
  have endless : Endless ahead := fun _ isAhead => kind_ne_eof_of_mem_tokensAhead isAhead
  let seam : Seam := ⟨stop, beyond, outside, stopEnds⟩
  have agree : seam.RulesAgree (ahead.length + 1) rules (Rules.upTo ahead.length) :=
    Seam.rulesAgree_upTo bottom ahead.length
  have sound := upTo_sound ahead.length
  have faithful : RulesFaithful (stop :: ahead) stop (Rules.upTo ahead.length) :=
    faithful_upTo stopEnds ahead.length
  refine ⟨⟨beyond, split⟩, endless, stopEnds, ?_, fun current le => ⟨?_, ?_⟩, fun others => ?_,
    fun _ => blames_of_ofTokens⟩
  · have agrees : seam.Agrees (ahead.length + 1)
        (Rules.statements rules.statement (·.kind == .eof))
        (Rules.statements (Rules.upTo ahead.length).statement (·.kind == .eof)) :=
      Seam.agrees_statements agree.statement agree.moves (by simpa using stopEnds)
    have alike := agrees (Nat.lt_succ_self _) endless trivial
    have left : (seam.whole ahead).drop ahead.length = seam.whole [] := by
      rw [seam.drop_whole (Nat.le_refl _), List.drop_length]
    rw [show completed tokens = seam.whole ahead from split, left]
    rw [show Rules.statements _ _ seam.stop ahead = _ from statements_upTo tokens] at alike
    generalize Rules.statements rules.statement _ outside (seam.whole ahead) = outcome at alike
    cases accepted : Program.ofTokens tokens with
    | error diagnostic =>
      rw [accepted] at alike
      cases alike
      rfl
    | ok program =>
      rw [accepted] at alike
      cases alike
      rfl
  · exact goesOn_of_agrees split rfl agree.statement faithful.statement
      (sound.statement.moves rfl stopEnds) le
  · exact goesOn_of_agrees split rfl agree.expression faithful.expression
      (sound.expression.moves rfl stopEnds) le
  · rw [Program.ofTokens, tokensAhead_append endless stopEnds, endToken_append endless stopEnds]
    rfl

end Grammar
end TinyScript
