import TinyScript.Proofs.Grammar.Levels
import TinyScript.Proofs.Grammar.Soundness
import TinyScript.Proofs.Token.Nesting

/-!
# Brackets of programs

Every production closes the brackets that it opens, with a mark of the same kind.
Only the items of a list bring the mark that closes the list; it is the last of
their tokens.
-/

namespace TinyScript
namespace Grammar

open Token

/-! ## Tokens between brackets -/

/-- There are no brackets among line breaks. -/
theorem nested_of_newlines
    {newlines : List Token}
    (areNewlines : Newlines newlines) :
    Nested newlines := by
  apply Nested.of_forall
  intro token mem
  rw [Token.opens, Token.closes, areNewlines token mem]
  exact ⟨rfl, rfl⟩

/-- There are no brackets among separators. -/
theorem nested_of_separators
    {separators : List Token}
    (separated : Separators separators) :
    Nested separators := by
  apply Nested.of_forall
  intro token mem
  rw [Token.opens, Token.closes]
  rcases separated token mem with kind | kind <;> rw [kind] <;> exact ⟨rfl, rfl⟩

/-! ## Productions -/

/-- The brackets of a form are closed; what stands up to a closing mark is closed but for that
mark. -/
def Form.Nests : (form : Form) → List Token → Prop
  | .items mark _, used | .list mark _, used =>
    ∃ inside closing, used = inside ++ [closing] ∧ closing.kind = .mark mark ∧ Nested inside
  | _, used => Nested used

/-- A list behind its opening mark is closed. -/
theorem Form.Nests.enclosed
    {mark ending : Mark}
    {item : Item}
    {opening : Token}
    {used : List Token}
    (nests : (Form.list ending item).Nests used)
    (openingKind : opening.kind = .mark mark)
    (pair : mark.closing? = some ending) :
    Nested (opening :: used) := by
  obtain ⟨inside, closing, rfl, closingKind, nested⟩ := nests
  exact Nested.enclosed openingKind pair nested closingKind .nil

/-! ## Operators and names are no marks -/

section NoMarks

variable {token : Token}

/-- No operator of a chain is a bracket. -/
theorem ne_mark_of_operation
    {chain : Chain}
    {operation : Position → Expr → Expr → Expr}
    (found : chain.operation? token = some operation)
    (mark : Mark) :
    token.kind ≠ .mark mark := by
  intro kind
  rw [Chain.operation?_of_mark kind] at found
  cases found

/-- No operator in front of its operand is a bracket. -/
theorem ne_mark_of_leading
    {operation : Expr → Expr}
    (found : Rules.leading? token = some operation)
    (mark : Mark) :
    token.kind ≠ .mark mark := by
  intro kind
  simp [Rules.leading?, kind] at found

/-- No operator behind its operand is a bracket. -/
theorem ne_mark_of_trailing
    {op : StepOp}
    (found : Rules.trailing? token = some op)
    (mark : Mark) :
    token.kind ≠ .mark mark := by
  intro kind
  simp [Rules.trailing?, kind] at found

theorem ne_mark_of_compound
    {op : Arithmetic}
    (found : Rules.compound? token = some op)
    (mark : Mark) :
    token.kind ≠ .mark mark := by
  intro kind
  simp [Rules.compound?, kind] at found

theorem ne_mark_of_flavour
    {flavour : Flavour}
    (found : Rules.flavour? token = some flavour)
    (mark : Mark) :
    token.kind ≠ .mark mark := by
  intro kind
  simp [Rules.flavour?, kind] at found

/-- No word is a bracket. -/
theorem ne_mark_of_word
    (kind : token.kind = .identifier ∨ ∃ word, token.kind = .keyword word)
    (mark : Mark) :
    token.kind ≠ .mark mark := by
  rcases kind with kind | ⟨word, kind⟩ <;> simp [kind]

theorem ne_mark_of_key
    (kind : token.kind = .identifier ∨ token.kind = .string)
    (mark : Mark) :
    token.kind ≠ .mark mark := by
  rcases kind with kind | kind <;> simp [kind]

end NoMarks

/-! ## Every production -/

/-- Every form closes its brackets. -/
theorem Derives.nests
    {form : Form}
    {used next : List Token}
    {tree : form.Tree}
    (derives : Derives form used tree next) :
    form.Nests used := by
  induction derives with
  | assign _ equalsKind _ target value =>
    exact target.append (.cons equalsKind rfl rfl value)
  | compoundAssign _ found _ target value =>
    exact target.append (Nested.cons_of_ne_mark (ne_mark_of_compound found) value)
  | declare _ colonKind found equalsKind _ target value =>
    have word := Nested.cons_of_ne_mark (ne_mark_of_flavour found)
      (Nested.cons equalsKind rfl rfl value)
    exact target.append (.cons colonKind rfl rfl word)
  | choice _ questionKind _ colonKind _ test consequent alternate =>
    have branches := consequent.append (.cons colonKind rfl rfl alternate)
    exact test.append (.cons questionKind rfl rfl branches)
  | operation _ found _ left right =>
    exact left.append (Nested.cons_of_ne_mark (ne_mark_of_operation found) right)
  | leading found _ operand => exact Nested.cons_of_ne_mark (ne_mark_of_leading found) operand
  | trailing _ found operand =>
    exact operand.append (Nested.cons_of_ne_mark (ne_mark_of_trailing found) .nil)
  | call _ openingKind _ callee arguments =>
    exact callee.append (arguments.enclosed openingKind rfl)
  | member _ dotKind keyKind subject =>
    have word := Nested.cons_of_ne_mark (ne_mark_of_word keyKind) .nil
    exact subject.append (.cons dotKind rfl rfl word)
  | index _ openingKind before _ behind closingKind subject key =>
    have inside := ((nested_of_newlines before).append key).append (nested_of_newlines behind)
    exact subject.append (.enclosed openingKind rfl inside closingKind .nil)
  | number kind _ => rcases kind with kind | kind <;> exact .cons kind rfl rfl .nil
  | typeof keywordKind _ operand => exact .cons keywordKind rfl rfl operand
  | grouped openingKind before _ behind closingKind value =>
    have inside := ((nested_of_newlines before).append value).append (nested_of_newlines behind)
    exact Nested.enclosed openingKind rfl inside closingKind .nil
  | array openingKind _ items => exact items.enclosed openingKind rfl
  | object openingKind _ fields => exact fields.enclosed openingKind rfl
  | calledOnTheSpot keywordKind colonKind₁ colonKind₂ _ value =>
    have body := Nested.cons colonKind₁ rfl rfl (.cons colonKind₂ rfl rfl value)
    rcases keywordKind with kind | kind <;> exact .cons kind rfl rfl body
  | betweenColons keywordKind colonKind₁ _ _ colonKind₂ _ parameters value =>
    have body := parameters.append (.cons colonKind₂ rfl rfl value)
    rcases keywordKind with kind | kind <;>
      exact .cons kind rfl rfl (.cons colonKind₁ rfl rfl body)
  | named keywordKind nameKind _ _ parameters body =>
    exact .cons keywordKind rfl rfl (.cons nameKind rfl rfl (parameters.append body))
  | unnamed keywordKind _ _ _ parameters body =>
    rcases keywordKind with ⟨kind, _⟩ | kind <;>
      exact .cons kind rfl rfl (parameters.append body)
  | functionValue colonKind _ value => exact .cons colonKind rfl rfl value
  | listedParameters openingKind _ parameters => exact parameters.enclosed openingKind rfl
  | noParameters | noStatements => exact .nil
  | requiredParameters nameKind _ _ others => exact .cons nameKind rfl rfl others
  | optionalParameters nameKind equalsKind openingKind _ closingKind _ default others =>
    have list := Nested.enclosed openingKind rfl default closingKind others
    exact .cons nameKind rfl rfl (.cons equalsKind rfl rfl list)
  | field keyKind before colonKind behind _ value =>
    have pair := (nested_of_newlines before).append
      (.cons colonKind rfl rfl ((nested_of_newlines behind).append value))
    exact Nested.cons_of_ne_mark (ne_mark_of_key keyKind) pair
  | shorthand keyKind behind _ =>
    exact Nested.cons_of_ne_mark (ne_mark_of_key keyKind) (nested_of_newlines behind)
  | optionalParameter nameKind equalsKind _ default =>
    exact .cons nameKind rfl rfl (.cons equalsKind rfl rfl default)
  | list before _ items =>
    obtain ⟨inside, closing, rfl, closingKind, nested⟩ := items
    exact ⟨_, closing, (List.append_assoc ..).symm, closingKind,
      (nested_of_newlines before).append nested⟩
  | noItems closingKind => exact ⟨[], _, rfl, closingKind, .nil⟩
  | lastItem _ behind closingKind last =>
    exact ⟨_, _, rfl, closingKind, Nested.append last (nested_of_newlines behind)⟩
  | moreItems _ before commaKind behind _ first others =>
    obtain ⟨inside, closing, rfl, closingKind, nested⟩ := others
    have separated := (nested_of_newlines behind).append nested
    refine ⟨_, closing, ?_, closingKind,
      (Nested.append first (nested_of_newlines before)).append (.cons commaKind rfl rfl separated)⟩
    simp only [List.append_assoc, List.cons_append]
  | block openingKind separated _ closingKind statements =>
    exact Nested.enclosed openingKind rfl ((nested_of_separators separated).append statements)
      closingKind .nil
  | bodyStatement colonKind _ statement => exact .cons colonKind rfl rfl statement
  | moreStatements _ separated _ first others =>
    exact (first.append (nested_of_separators separated)).append others
  | ended _ semicolonKind statement => exact statement.append (.cons semicolonKind rfl rfl .nil)
  | whileLoop keywordKind _ _ test body => exact .cons keywordKind rfl rfl (test.append body)
  | forLoop keywordKind _ semicolonKind₁ _ semicolonKind₂ _ _ start test update body =>
    have second := test.append (.cons semicolonKind₂ rfl rfl (update.append body))
    exact .cons keywordKind rfl rfl (start.append (.cons semicolonKind₁ rfl rfl second))
  | returnValue keywordKind _ value => exact .cons keywordKind rfl rfl value
  | debugList keywordKind openingKind _ values =>
    exact .cons keywordKind rfl rfl (values.enclosed openingKind rfl)
  | debugValue keywordKind _ _ value => exact .cons keywordKind rfl rfl value
  | use keywordKind pathKind => exact .cons keywordKind rfl rfl (.cons pathKind rfl rfl .nil)
  | exported keywordKind _ _ function => exact .cons keywordKind rfl rfl function
  | ifElse keywordKind _ _ before otherwiseKind _ test consequent alternate =>
    have first := (test.append consequent).append (nested_of_newlines before)
    exact .cons keywordKind rfl rfl (first.append (.cons otherwiseKind rfl rfl alternate))
  | ifOnly keywordKind _ _ _ test consequent =>
    exact .cons keywordKind rfl rfl (test.append consequent)
  | elseColon colonKind _ statement => exact .cons colonKind rfl rfl statement
  | program separated _ statements => exact (nested_of_separators separated).append statements
  | name kind | text kind | truth kind | falsehood kind | undefined kind
  | requiredParameter kind _ | returnNothing kind _ => exact .cons kind rfl rfl .nil
  | unassigned _ _ nests | unchosen _ _ nests | operand _ nests | chain _ _ nests
  | unstepped _ _ nests | suffixed _ _ nests | subject _ nests | lambda _ nests
  | functionBlock _ nests | unlistedParameters _ _ nests | value _ nests | bodyBlock _ nests
  | unended _ _ nests | branchStatement _ nests | expressionStatement _ nests
  | elseIf _ nests | elseBlock _ nests | elseStatement _ _ _ nests => exact nests

end Grammar
end TinyScript
