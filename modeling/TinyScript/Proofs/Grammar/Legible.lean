import TinyScript.Proofs.Grammar.Levels
import TinyScript.Proofs.Grammar.Spelling
import TinyScript.Proofs.Grammar.Steps

/-!
# Printed expressions are read back

The tokens of an expression derive it, up to positions, wherever the printer puts
it.  It is enough to see that where the expression's own level is called for: where
the printer asks for a looser one the expression is loosened, and where it asks for
a tighter one it stands in parentheses.
-/

namespace TinyScript
namespace Grammar

open Token

variable {fits : List Token → Prop}

/-! ## The tokens of words and operators -/

@[simp] theorem kind_ofWord_keyword
    (word : Keyword) :
    (ofWord word.spelling).kind = .keyword word := by
  cases word <;> rfl

@[simp] theorem kind_ofOperator_sign
    (sign : Sign) :
    (ofOperator sign.spelling).kind = .sign sign := by
  cases sign <;> rfl

/-- The spelling of a binary operator is read as an operator of its chain. -/
theorem operation?_ofOperator_binary
    (op : BinaryOp) :
    (Chain.ofBinary op).operation? (ofOperator op.spelling) = some (.binary · op) := by
  rcases op with (_ | _ | _ | _ | _ | _) | _ | _ | (_ | _ | _ | _) <;> rfl

/-- The spelling of a logical operator is read as an operator of its chain. -/
theorem operation?_ofOperator_logical
    (op : LogicalOp) :
    Chain.logical.operation? (ofOperator op.spelling) = some (.logical · op) := by
  cases op <;> rfl

/-- The spelling of a step operator is read as one behind an operand. -/
theorem trailing?_ofOperator
    (op : StepOp) :
    Rules.trailing? (ofOperator op.symbol) = some op := by
  cases op <;> rfl

/-- The spelling of a unary operator is read as one in front of an operand. -/
theorem leading?_of_unary
    {token : Token}
    {op : UnaryOp}
    (same : token.erase = ofOperator op.spelling) :
    Rules.leading? token = some (.unary token.position op) := by
  cases op with
  | not =>
    have kind : token.kind = .sign .bang := kind_of_erase same
    simp [Rules.leading?, kind]
  | plus =>
    have kind : token.kind = .operator := kind_of_erase same
    have lexeme : token.lexeme = "+" := lexeme_of_erase same
    simp [Rules.leading?, kind, lexeme]
  | minus =>
    have kind : token.kind = .operator := kind_of_erase same
    have lexeme : token.lexeme = "-" := lexeme_of_erase same
    simp [Rules.leading?, kind, lexeme]

/-- The spelling of a step operator is read as one in front of an operand. -/
theorem leading?_of_step
    {token : Token}
    {op : StepOp}
    (same : token.erase = ofOperator op.symbol) :
    Rules.leading? token = some (.step token.position .before op) := by
  cases op with
  | increment =>
    have kind : token.kind = .sign .increment := kind_of_erase same
    simp [Rules.leading?, kind]
  | decrement =>
    have kind : token.kind = .sign .decrement := kind_of_erase same
    simp [Rules.leading?, kind]

/-- The spelling of a flavour of declarations is read as this flavour. -/
theorem flavour?_ofWord
    (flavour : Flavour) :
    Rules.flavour? (ofWord flavour.spelling) = some flavour := by
  cases flavour <;> rfl

/-! ## Lists -/

/-- What stands behind an item of a list. -/
def EndsItem (closing : Mark) (next : List Token) : Prop :=
  kindAhead next = .mark .comma ∨ kindAhead next = .mark closing

/-- What ends an item ends a value if the closing bracket does. -/
theorem EndsItem.endsValue
    {closing : Mark}
    {next : List Token}
    (ends : EndsItem closing next)
    (closes : Grammar.endsValue (.mark closing) = true) :
    Grammar.endsValue (kindAhead next) = true := by
  rcases ends with comma | closed
  · rw [comma]
    rfl
  · rw [closed]
    exact closes

/-- A comma or the closing mark stands behind each item. -/
theorem Spells.beforeMark
    {closing mark : Mark}
    {item : Item}
    {tokens more : List Token}
    {tree : item.Tree}
    (spells : Spells (.item item) tokens tree (EndsItem closing))
    (ends : mark = .comma ∨ mark = closing) :
    Spells (.item item) tokens tree (Before (ofMark mark :: more) fits) := by
  refine spells.before fun token next same => ?_
  have kind : token.kind = .mark mark := kind_of_erase same
  rcases ends with rfl | rfl
  · exact .inl kind
  · exact .inr kind

/-- Items that are spelled can be spelled in a row, with commas between them. -/
theorem spells_items
    {α : Type}
    {closing : Mark}
    {item : Item}
    {tokens : α → List Token}
    {tree : α → item.Tree}
    {entries : List α}
    (each : ∀ entry ∈ entries, Spells (.item item) (tokens entry) (tree entry) (EndsItem closing)) :
    Spells (.items closing item) (separated (entries.map tokens) ++ [ofMark closing])
      (entries.map tree) fits := by
  -- One case for each equation of `separated`.
  match entries with
  | [] => exact spells_noItems rfl
  | [last] =>
    have lastSpells := each last List.mem_cons_self
    have items : Spells (.items closing item) (tokens last ++ [] ++ [ofMark closing]) [tree last]
        fits :=
      .lastItem (lastSpells.beforeMark (.inr rfl)) Newlines.nil rfl
    rwa [List.append_nil] at items
  | first :: second :: others =>
    have firstSpells := each first List.mem_cons_self
    have othersSpell : Spells (.items closing item)
        (separated ((second :: others).map tokens) ++ [ofMark closing])
        ((second :: others).map tree) fits :=
      spells_items fun entry mem => each entry (List.mem_cons_of_mem first mem)
    have items : Spells (.items closing item)
        (tokens first ++ [] ++ ofMark .comma ::
          ([] ++ (separated ((second :: others).map tokens) ++ [ofMark closing])))
        (tree first :: (second :: others).map tree) fits :=
      .moreItems (firstSpells.beforeMark (.inl rfl)) Newlines.nil rfl Newlines.nil othersSpell
    simpa [separated] using items

/-- A list in brackets whose items are read from the tokens of entries. -/
theorem spells_entries
    {α : Type}
    {closing : Mark}
    (item : Item)
    {tokens : α → List Token}
    {tree : α → item.Tree}
    {entries : List α}
    (each : ∀ entry ∈ entries, Spells (.item item) (tokens entry) (tree entry) (EndsItem closing)) :
    Spells (.list closing item) (separated (entries.map tokens) ++ [ofMark closing])
      (entries.map tree) fits := by
  have list : Spells (.list closing item)
      ([] ++ (separated (entries.map tokens) ++ [ofMark closing])) (entries.map tree) fits :=
    .list Newlines.nil (spells_items each)
  exact list

/-- A list in brackets. -/
theorem spells_list
    {closing : Mark}
    (item : Item)
    (tokens : item.Tree → List Token)
    {items : List item.Tree}
    (each : ∀ entry ∈ items, Spells (.item item) (tokens entry) entry (EndsItem closing)) :
    Spells (.list closing item) (separated (items.map tokens) ++ [ofMark closing]) items fits := by
  have spells : Spells (.list closing item) _ _ fits := spells_entries item each
  rwa [List.map_id'] at spells

/-! ## Blocks and functions -/

/-- What stands behind the statements of a block or a program. -/
def EndsStatements (next : List Token) : Prop :=
  kindAhead next = .mark .closeBrace ∨ kindAhead next = .eof

/-- Statements that are spelled make a block in braces. -/
theorem spells_block
    {tokens : List Token}
    {statements : List Stmt}
    (spells : Spells .statements tokens statements EndsStatements) :
    Spells .block (braced tokens) statements fits := by
  have block : Spells .block (ofMark .openBrace :: ([] ++ tokens ++ [ofMark .closeBrace]))
      statements fits :=
    .block rfl Separators.nil (spells.before fun _ _ same => .inl (kind_of_erase same)) rfl
  exact block

/-- Parameters that are spelled make a list in brackets. -/
theorem spells_parameters
    {parameters : List Parameter}
    (each : ∀ parameter ∈ parameters,
      Spells (.item .parameter) parameter.tokens parameter (EndsItem .closeParen)) :
    Spells .parameters
      (enclosed .openParen .closeParen (separated (parameters.map Parameter.tokens))) parameters
      fits :=
  .listedParameters rfl (spells_list .parameter Parameter.tokens each)

/-- A function is spelled by its name, its parameters and its body. -/
theorem spells_function
    {name : Option String}
    {parameters : List Parameter}
    {bodyTokens : List Token}
    {body : List Stmt}
    (isName : ∀ word ∈ name, IsName word)
    (each : ∀ parameter ∈ parameters,
      Spells (.item .parameter) parameter.tokens parameter (EndsItem .closeParen))
    (bodySpells : Spells .statements bodyTokens body EndsStatements)
    (exported : Bool)
    (position : Position) :
    Spells (.function exported)
      (functionTokens name (parameters.map Parameter.tokens) bodyTokens)
      (.function position name exported parameters body) fits := by
  have bodySpells : Spells .functionBody (braced bodyTokens) body fits :=
    (spells_block bodySpells).functionBlock
  cases name with
  | none =>
    have unnamed : Spells (.function exported)
        (ofWord Keyword.fnWord.spelling ::
          (enclosed .openParen .closeParen (separated (parameters.map Parameter.tokens)) ++
            braced bodyTokens))
        (.function position none exported parameters body) fits :=
      .unnamed (.inl ⟨rfl, nofun⟩) nofun (spells_parameters each) bodySpells
    exact unnamed
  | some word =>
    have named : Spells (.function exported)
        (ofWord Keyword.fnWord.spelling :: ofWord word ::
          (enclosed .openParen .closeParen (separated (parameters.map Parameter.tokens)) ++
            braced bodyTokens))
        (.function position (some word) exported parameters body) fits :=
      .named rfl (isName word rfl).2 (spells_parameters each) bodySpells
    exact named

/-! ## Expressions in their places -/

/-- An expression that is read from its tokens in every place where it can stand. -/
structure Legible (value : Expr) : Prop where
  expression : ∀ level : Level,
    Spells (.expression level) (placed level value value.tokens) value (Follows level)
  /-- In front of an operator of the same level. -/
  operations : ∀ chain : Chain,
    Spells (.operations chain) (placed (.chain chain) value value.tokens) value
      (Follows chain.operand)
  /-- In front of a call or an access. -/
  accesses : Spells .accesses (placed .suffixed value value.tokens) value anything
  /-- A change by one at the end keeps whatever follows out. -/
  stepped : value.endsInStep = true →
    Spells (.expression .unary) (placed .unary value value.tokens) value anything

/-- An expression that is tight enough stands in its slot without brackets. -/
theorem placed_of_le
    {slot : Level}
    {value : Expr}
    (le : slot.rank ≤ value.level.rank)
    (tokens : List Token) :
    placed slot value tokens = tokens :=
  if_neg (Nat.not_lt_of_le le)

theorem placed_assignment
    (value : Expr)
    (tokens : List Token) :
    placed .assignment value tokens = tokens :=
  placed_of_le (Nat.zero_le _) tokens

/-- Tokens that are read as an expression wherever nothing goes on with it. -/
abbrev SpellsValue (tokens : List Token) (value : Expr) : Prop :=
  Spells (.expression .assignment) tokens value (Follows .assignment)

/-- A legible expression can be spelled wherever a value is wanted. -/
theorem Legible.spellsValue
    {value : Expr}
    (legible : Legible value) :
    SpellsValue value.tokens value := by
  have spells := legible.expression .assignment
  rwa [placed_assignment] at spells

/-- A change by one at the end makes an expression of the level of operators on one value. -/
theorem level_of_endsInStep
    {value : Expr}
    (ends : value.endsInStep = true) :
    value.level = .unary := by
  unfold Expr.endsInStep at ends
  split at ends <;> first | rfl | cases ends

/-- An expression that is spelled in a tight slot is in a loose one, if nothing that follows goes on
with it. -/
theorem Spells.loosen
    {loose tight : Level}
    {tokens : List Token}
    {value : Expr}
    (spells : Spells (.expression tight) tokens value fits)
    (le : loose.rank ≤ tight.rank)
    (fit : ∀ next, Follows loose next → fits next) :
    Spells (.expression loose) tokens value (Follows loose) := by
  intro used next same follows
  obtain ⟨parsed, derives, erased⟩ := spells used next same (fit next follows)
  exact ⟨parsed, derives.loosen le follows, erased⟩

/-- An expression in front of a mark that ends it. -/
theorem SpellsValue.beforeMark
    {tokens more : List Token}
    {value : Expr}
    (spells : SpellsValue tokens value)
    {mark : Mark}
    (ends : endsValue (.mark mark) = true) :
    Spells (.expression .assignment) tokens value (Before (ofMark mark :: more) fits) := by
  refine spells.before fun token next same => follows_of_endsValue ?_ .assignment
  rwa [kindAhead_cons, kind_of_erase same]

/-- An expression in brackets stands in every slot. -/
theorem spells_parenthesized
    {level : Level}
    {tokens : List Token}
    {value : Expr}
    (own : Spells (.expression level) tokens value (Follows level)) :
    Spells (.expression .primary) (enclosed .openParen .closeParen tokens) value fits := by
  have value' : SpellsValue tokens value :=
    own.loosen (Nat.zero_le _) fun _ follows => follows.of_le (Nat.zero_le _)
  have grouped : Spells (.expression .primary)
      (ofMark .openParen :: ([] ++ tokens ++ [] ++ [ofMark .closeParen])) value fits :=
    .grouped rfl Newlines.nil (value'.beforeMark rfl) Newlines.nil rfl
  rwa [List.append_nil] at grouped

/-- It is enough that an expression is read where its own level is called for; elsewhere it is
loosened or put in parentheses. -/
theorem Legible.of_own
    {value : Expr}
    (own : Spells (.expression value.level) value.tokens value (Follows value.level))
    (operations : ∀ chain, value.level = .chain chain →
      Spells (.operations chain) value.tokens value (Follows chain.operand))
    (accesses : Level.suffixed.rank ≤ value.level.rank →
      Spells .accesses value.tokens value anything)
    (stepped : value.endsInStep = true →
      Spells (.expression .unary) value.tokens value anything) :
    Legible value where
  expression level := by
    unfold placed
    split
    · exact (spells_parenthesized own).loosen level.rank_le_primary fun _ _ => trivial
    · rename_i le
      exact own.loosen (Nat.le_of_not_lt le) fun _ follows => follows.of_le (Nat.le_of_not_lt le)
  operations chain := by
    unfold placed
    split
    · exact ((spells_parenthesized own).loosen (Level.rank_le_primary _) fun _ _ => trivial).operand
    · rename_i le
      rcases Nat.eq_or_lt_of_le (Nat.le_of_not_lt le) with same | above
      · exact operations chain (Level.eq_of_rank_eq same).symm
      · rw [← Nat.succ_le_iff, Nat.succ_eq_add_one, ← Chain.rank_operand] at above
        exact (own.loosen above fun _ follows => follows.of_le above).operand
  accesses := by
    unfold placed
    split
    · exact (spells_parenthesized own).subject
    · rename_i le
      exact accesses (Nat.le_of_not_lt le)
  stepped ends := by
    rw [placed_of_le (Nat.le_of_eq (by rw [level_of_endsInStep ends]))]
    exact stepped ends

/-- A primary expression is legible if it is spelled whatever follows. -/
theorem Legible.of_primary
    {value : Expr}
    (isPrimary : value.level = .primary)
    (own : Spells (.expression .primary) value.tokens value anything) :
    Legible value := by
  refine .of_own ?_ ?_ (fun _ => own.subject) ?_
  · rw [isPrimary]
    exact own.loosen (Nat.le_refl _) fun _ _ => trivial
  · intro chain same
    rw [isPrimary] at same
    cases same
  · intro ends
    rw [level_of_endsInStep ends] at isPrimary
    cases isPrimary

/-- An expression with suffixes is legible if it is spelled whatever follows. -/
theorem Legible.of_accesses
    {value : Expr}
    (isSuffixed : value.level = .suffixed)
    (own : Spells .accesses value.tokens value anything) :
    Legible value := by
  refine .of_own ?_ ?_ (fun _ => own) ?_
  · rw [isSuffixed]
    intro used next same follows
    obtain ⟨parsed, derives, erased⟩ := own used next same trivial
    exact ⟨parsed, .suffixed derives follows.ends, erased⟩
  · intro chain same
    rw [isSuffixed] at same
    cases same
  · intro ends
    rw [level_of_endsInStep ends] at isSuffixed
    cases isSuffixed

/-- A unary expression is legible if it is spelled wherever nothing goes on with it. -/
theorem Legible.of_unary
    {value : Expr}
    (isUnary : value.level = .unary)
    (own : Spells (.expression .unary) value.tokens value (Follows .unary))
    (stepped : value.endsInStep = true →
      Spells (.expression .unary) value.tokens value anything) :
    Legible value := by
  refine .of_own ?_ ?_ ?_ stepped
  · rw [isUnary]
    exact own
  · intro chain same
    rw [isUnary] at same
    cases same
  · intro tight
    rw [isUnary] at tight
    exact absurd tight (by decide)

/-- An operation is legible if it is spelled in its chain. -/
theorem Legible.of_operations
    {chain : Chain}
    {value : Expr}
    (isOperation : value.level = .chain chain)
    (own : Spells (.operations chain) value.tokens value (Follows chain.operand)) :
    Legible value := by
  have operand : (Level.chain chain).rank ≤ chain.operand.rank :=
    Nat.le_trans (Nat.le_succ _) (Nat.le_of_eq chain.rank_operand.symm)
  refine .of_own ?_ ?_ ?_ ?_
  · rw [isOperation]
    intro used next same follows
    obtain ⟨parsed, derives, erased⟩ := own used next same (follows.of_le operand)
    exact ⟨parsed, .chain derives follows.ends, erased⟩
  · intro other same
    rw [isOperation, Level.chain.injEq] at same
    rw [← same]
    exact own
  · intro tight
    rw [isOperation] at tight
    exact absurd tight (by cases chain <;> decide)
  · intro ends
    rw [level_of_endsInStep ends] at isOperation
    cases isOperation

/-- A ternary expression, an assignment or a declaration is legible if it is spelled at its
level. -/
theorem Legible.of_loose
    {value : Expr}
    (isLoose : value.level.rank ≤ Level.ternary.rank)
    (own : Spells (.expression value.level) value.tokens value (Follows value.level)) :
    Legible value := by
  refine .of_own own ?_ ?_ ?_
  · intro chain same
    rw [same] at isLoose
    exact absurd isLoose (by cases chain <;> decide)
  · intro tight
    exact absurd (Nat.le_trans tight isLoose) (by decide)
  · intro ends
    rw [level_of_endsInStep ends] at isLoose
    exact absurd isLoose (by decide)

/-! ## One expression from its parts -/

section Parts

variable (position : Position)

/-- A name is legible if it is no keyword. -/
theorem legible_name
    {name : String}
    (isName : IsName name) :
    Legible (.name position name) :=
  .of_primary rfl (spells_name isName.2)

/-- A numeral spells the number that it is read as. -/
theorem spells_numeral
    {digits : List Char}
    {value : Float}
    (reads : Number.read? digits = some value) :
    Spells (.expression .primary) [ofNumeral digits] (.number position value) anything := by
  refine spells_number ?_ ?_
  · simp only [ofNumeral, Scanner.numberKind]
    split
    · exact .inr rfl
    · exact .inl rfl
  · rwa [ofNumeral, String.toList_ofList]

/-- A number with a literal is legible. -/
theorem legible_number
    {value : Float}
    (found : ∃ digits, IsLiteral digits value) :
    Legible (.number position value) :=
  .of_primary rfl (spells_numeral position (isLiteral_literal found).2)

theorem legible_text
    (text : String) :
    Legible (.text position text) :=
  .of_primary rfl (spells_text rfl)

theorem legible_bool
    (value : Bool) :
    Legible (.bool position value) := by
  refine .of_primary rfl ?_
  cases value with
  | false => exact spells_falsehood rfl
  | true => exact spells_truth rfl

theorem legible_undefined :
    Legible (.undefined position) :=
  .of_primary rfl (spells_undefined rfl)

/-- An expression that can be spelled as a value is one as an item. -/
theorem spells_value
    {closing : Mark}
    (closes : endsValue (.mark closing) = true)
    {tokens : List Token}
    {value : Expr}
    (spells : SpellsValue tokens value) :
    Spells (.item .value) tokens value (EndsItem closing) :=
  .value (spells.mono fun _ ends => follows_of_endsValue (ends.endsValue closes) .assignment)

/-- An array is spelled by its items in square brackets. -/
theorem spells_array
    {α : Type}
    {tokens : α → List Token}
    {tree : α → Expr}
    {entries : List α}
    (each : ∀ entry ∈ entries, SpellsValue (tokens entry) (tree entry)) :
    Spells (.expression .primary)
      (enclosed .openBracket .closeBracket (separated (entries.map tokens)))
      (.array position (entries.map tree)) anything :=
  .array rfl (spells_entries .value fun entry mem => spells_value rfl (each entry mem))

/-- An array of legible items is legible. -/
theorem legible_array
    {items : List Expr}
    (each : ∀ item ∈ items, Legible item) :
    Legible (.array position items) := by
  refine .of_primary rfl ?_
  have spells := spells_array position fun item mem => (each item mem).spellsValue
  rw [List.map_id'] at spells
  rw [Expr.tokens, Expr.tokensOfAll_eq_map]
  exact spells

/-- An object is spelled by its properties in braces. -/
theorem spells_object
    {α : Type}
    {tokens : α → List Token}
    {tree : α → Field}
    {entries : List α}
    (each : ∀ entry ∈ entries,
      Spells (.item .field) (tokens entry) (tree entry) (EndsItem .closeBrace)) :
    Spells (.expression .primary) (braced (separated (entries.map tokens)))
      (.object position (entries.map tree)) anything :=
  .object rfl (spells_entries .field each)

/-- An object whose properties are spelled is legible. -/
theorem legible_object
    {fields : List Field}
    (each : ∀ field ∈ fields, Spells (.item .field) field.tokens field (EndsItem .closeBrace)) :
    Legible (.object position fields) := by
  refine .of_primary rfl ?_
  have spells := spells_object position each
  rw [List.map_id'] at spells
  rw [Expr.tokens, Field.tokensOfAll_eq_map]
  exact spells

/-- A function whose parts are spelled is legible. -/
theorem legible_function
    {name : Option String}
    {parameters : List Parameter}
    {body : List Stmt}
    (isName : ∀ word ∈ name, IsName word)
    (each : ∀ parameter ∈ parameters,
      Spells (.item .parameter) parameter.tokens parameter (EndsItem .closeParen))
    (bodySpells : Spells .statements (Stmt.tokensOfAll body) body EndsStatements) :
    Legible (.function position name false parameters body) := by
  refine .of_primary rfl ?_
  rw [Expr.tokens, Parameter.tokensOfAll_eq_map]
  exact (spells_function isName each bodySpells false position).lambda

/-- An operation is spelled by its operands, in brackets where they need them, and the operator
between them. -/
theorem spells_operation
    {chain : Chain}
    {left right : Expr}
    {sign : Token}
    {operation : Position → Expr → Expr → Expr}
    (leftLegible : Legible left)
    (found : chain.operation? sign = some operation)
    (rightLegible : Legible right) :
    Spells (.operations chain)
      (placed (.chain chain) left left.tokens ++ sign :: placed chain.operand right right.tokens)
      (operation position left right) (Follows chain.operand) := by
  refine .operation ((leftLegible.operations chain).before fun token next same => ?_) found
    (rightLegible.expression chain.operand)
  have tokenFound : chain.operation? token = some operation := by
    rw [← found, ← same]
    exact (Chain.operation?_relabel chain token).symm
  exact follows_of_operation tokenFound next

/-- A binary operation on legible operands is legible. -/
theorem legible_binary
    {left right : Expr}
    (op : BinaryOp)
    (leftLegible : Legible left)
    (rightLegible : Legible right) :
    Legible (.binary position op left right) :=
  .of_operations rfl
    (spells_operation position leftLegible (operation?_ofOperator_binary op) rightLegible)

/-- A logical operation on legible operands is legible. -/
theorem legible_logical
    {left right : Expr}
    (op : LogicalOp)
    (leftLegible : Legible left)
    (rightLegible : Legible right) :
    Legible (.logical position op left right) :=
  .of_operations rfl
    (spells_operation position leftLegible (operation?_ofOperator_logical op) rightLegible)

/-- An operator before its operand, in front of whatever fits behind the operand. -/
theorem spells_leading
    {sign : Token}
    {tokens : List Token}
    {operand : Expr}
    (operation : Position → Expr → Expr)
    (leads : ∀ token : Token, token.erase = sign →
      Rules.leading? token = some (operation token.position))
    (moves : ∀ (place : Position) (tree : Expr),
      (operation place tree).erase = operation .start tree.erase)
    (operandSpells : Spells (.expression .unary) tokens operand fits) :
    Spells (.expression .unary) (sign :: tokens) (operation position operand) fits := by
  refine operandSpells.leading fun token same => ⟨_, leads token same, fun _ _ erased => ?_⟩
  rw [moves, moves, erased]

/-- A unary operation on a legible operand is legible. -/
theorem legible_unary
    {operand : Expr}
    (op : UnaryOp)
    (legible : Legible operand) :
    Legible (.unary position op operand) := by
  refine .of_unary rfl ?_ fun ends => ?_
  · exact spells_leading position (Expr.unary · op) (fun _ => leading?_of_unary)
      (fun _ _ => rfl) (legible.expression .unary)
  · exact spells_leading position (Expr.unary · op) (fun _ => leading?_of_unary)
      (fun _ _ => rfl) (legible.stepped ends)

/-- A step in front of a legible operand is legible. -/
theorem legible_step_before
    {operand : Expr}
    (op : StepOp)
    (legible : Legible operand) :
    Legible (.step position .before op operand) := by
  refine .of_unary rfl ?_ fun ends => ?_
  · exact spells_leading position (Expr.step · .before op) (fun _ => leading?_of_step)
      (fun _ _ => rfl) (legible.expression .unary)
  · exact spells_leading position (Expr.step · .before op) (fun _ => leading?_of_step)
      (fun _ _ => rfl) (legible.stepped ends)

/-- A step behind a legible operand is legible. -/
theorem legible_step_behind
    {operand : Expr}
    (op : StepOp)
    (legible : Legible operand) :
    Legible (.step position .behind op operand) := by
  have own : Spells (.expression .unary) (Expr.step position .behind op operand).tokens
      (.step position .behind op operand) anything := by
    refine .trailing ((legible.expression .suffixed).before fun token next same => ?_)
      (trailing?_ofOperator op)
    have steps : Rules.trailing? token = some op := by
      rw [← trailing?_ofOperator op, ← same]
      rfl
    exact follows_of_trailing steps next
  exact .of_unary rfl (own.loosen (Nat.le_refl _) fun _ _ => trivial) fun _ => own

/-- An assignment of a legible value to a legible target is legible. -/
theorem legible_assign
    {target value : Expr}
    (targetLegible : Legible target)
    (valueLegible : Legible value) :
    Legible (.assign position target value) := by
  refine .of_loose (Nat.zero_le _) (.assign ?_ rfl valueLegible.spellsValue)
  exact (targetLegible.expression .ternary).before fun token next same =>
    follows_of_assign (kind_of_erase same) next

/-- A declaration of a name with a legible value is legible. -/
theorem legible_declare
    {name : String}
    {value : Expr}
    (isName : IsName name)
    (flavour : Flavour)
    (valueLegible : Legible value) :
    Legible (.declare position flavour name value) := by
  have nameSpells : Spells (.expression .ternary) [ofWord name] (.name position name)
      (Follows .ternary) :=
    (spells_name isName.2).loosen (Level.rank_le_primary _) fun _ _ => trivial
  have declaration : SpellsValue
      ([ofWord name] ++ ofMark .colon :: ofWord flavour.spelling ::
        ofOperator Sign.assign.spelling :: value.tokens)
      (.declare position flavour name value) := by
    refine .declare (nameSpells.before fun token next same => ?_) rfl (flavour?_ofWord flavour) rfl
      valueLegible.spellsValue
    exact follows_of_colon (kind_of_erase same) next
  exact .of_loose (Nat.zero_le _) declaration

/-- A ternary expression with legible parts is legible. -/
theorem legible_ternary
    {test consequent alternate : Expr}
    (testLegible : Legible test)
    (consequentLegible : Legible consequent)
    (alternateLegible : Legible alternate) :
    Legible (.ternary position test consequent alternate) := by
  refine .of_loose (Nat.le_refl _)
    (.choice ?_ rfl ?_ rfl (alternateLegible.expression .ternary))
  · exact (testLegible.expression (.chain .logical)).before fun token next same =>
      follows_of_question (kind_of_erase same) next
  · exact (consequentLegible.expression (.chain .logical)).before fun token next same =>
      (follows_of_colon (kind_of_erase same) next).of_le (by decide)

/-- A call with legible parts is legible. -/
theorem legible_call
    {callee : Expr}
    {arguments : List Expr}
    (calleeLegible : Legible callee)
    (each : ∀ argument ∈ arguments, Legible argument) :
    Legible (.call position callee arguments) := by
  refine .of_accesses rfl ?_
  rw [Expr.tokens, Expr.tokensOfAll_eq_map]
  exact .call calleeLegible.accesses.anywhere rfl <| spells_list .value Expr.tokens
    fun item mem => spells_value rfl (each item mem).spellsValue

/-- A member of a legible expression is legible. -/
theorem legible_member
    {subject : Expr}
    (subjectLegible : Legible subject)
    (key : String) :
    Legible (.member position subject key) := by
  have keyKind : (ofWord key).kind = .identifier ∨ ∃ word, (ofWord key).kind = .keyword word := by
    simp only [ofWord, Scanner.wordKind]
    split
    · exact .inr ⟨_, rfl⟩
    · exact .inl rfl
  exact .of_accesses rfl (.member subjectLegible.accesses.anywhere rfl keyKind)

/-- An element of a legible expression at a legible key is legible. -/
theorem legible_index
    {subject key : Expr}
    (subjectLegible : Legible subject)
    (keyLegible : Legible key) :
    Legible (.index position subject key) := by
  have index : Spells .accesses
      (placed .suffixed subject subject.tokens ++
        ofMark .openBracket :: ([] ++ key.tokens ++ [] ++ [ofMark .closeBracket]))
      (.index position subject key) anything :=
    .index subjectLegible.accesses.anywhere rfl Newlines.nil (keyLegible.spellsValue.beforeMark rfl)
      Newlines.nil rfl
  rw [List.append_nil] at index
  exact .of_accesses rfl index

theorem legible_typeof
    {operand : Expr}
    (legible : Legible operand) :
    Legible (.typeof position operand) := by
  cases ends : operand.endsInStep with
  | true => exact .of_primary (by simp [Expr.level, ends]) ((legible.stepped ends).typeof rfl)
  | false =>
    refine .of_unary (by simp [Expr.level, ends]) ?_ fun steps => by cases steps
    exact ((legible.expression .unary).typeof rfl).loosen (by decide) fun _ follows => follows

end Parts

end Grammar
end TinyScript
