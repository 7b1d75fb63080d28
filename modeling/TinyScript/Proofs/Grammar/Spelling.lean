import TinyScript.Proofs.Grammar.Positions

/-!
# Spelling a form

`Spells form tokens tree fits` says that tokens like the given ones, wherever they are placed, are a
form with a certain tree up to positions.  Both the printer's tokens and the tokens of a derivation
spell a form, and a lemma for a production serves them both: the form is spelled if its parts are,
each of them in front of tokens like those that spell the rest.

What is asked of a token is asked of the one in the spelling, since a token at another place has
the same kind and the same text.
-/

namespace TinyScript
namespace Grammar

/-- Tokens that are, wherever they are placed, a form with a certain tree up to positions, in front
of any tokens that fit behind it. -/
def Spells
    (form : Form)
    (tokens : List Token)
    (tree : form.Tree)
    (fits : List Token → Prop) : Prop :=
  ∀ used next, used.map Token.erase = tokens → fits next →
    ∃ parsed, Derives form used parsed next ∧
      form.relabel (fun _ => .start) parsed = form.relabel (fun _ => .start) tree

/-- Whatever stands behind the form. -/
def anything : List Token → Prop :=
  fun _ => True

/-- Tokens like those of a model, with something that fits behind them. -/
def Before (model : List Token) (fits : List Token → Prop) (ahead : List Token) : Prop :=
  ∃ used next, ahead = used ++ next ∧ used.map Token.erase = model ∧ fits next

variable {fits : List Token → Prop}

/-! ## Tokens at other places -/

theorem kind_of_erase
    {token model : Token}
    (same : token.erase = model) :
    token.kind = model.kind := by
  rw [← same]
  rfl

theorem lexeme_of_erase
    {token model : Token}
    (same : token.erase = model) :
    token.lexeme = model.lexeme := by
  rw [← same]
  rfl

@[simp] theorem kindAhead_map_erase
    (tokens : List Token) :
    kindAhead (tokens.map Token.erase) = kindAhead tokens :=
  kindAhead_map_relabel tokens

theorem Newlines.of_map_erase
    {tokens : List Token}
    (newlines : Newlines (tokens.map Token.erase)) :
    Newlines tokens :=
  fun token mem => newlines token.erase (List.mem_map_of_mem mem)

theorem Separators.of_map_erase
    {tokens : List Token}
    (separators : Separators (tokens.map Token.erase)) :
    Separators tokens :=
  fun token mem => separators token.erase (List.mem_map_of_mem mem)

/-! ## What stands ahead -/

theorem Before.nil
    {next : List Token}
    (fit : fits next) :
    Before [] fits next :=
  ⟨[], next, rfl, rfl, fit⟩

theorem Before.append
    {used ahead first model : List Token}
    (same : used.map Token.erase = first)
    (before : Before model fits ahead) :
    Before (first ++ model) fits (used ++ ahead) := by
  obtain ⟨middle, next, rfl, rfl, fit⟩ := before
  refine ⟨used ++ middle, next, (List.append_assoc ..).symm, ?_, fit⟩
  rw [List.map_append, same]

theorem Before.cons
    {token : Token}
    {ahead model : List Token}
    (before : Before model fits ahead) :
    Before (token.erase :: model) fits (token :: ahead) :=
  before.append (show [token].map Token.erase = [token.erase] from rfl)

theorem Before.last
    {used next : List Token}
    (fit : fits next) :
    Before (used.map Token.erase) fits (used ++ next) :=
  ⟨used, next, rfl, rfl, fit⟩

/-- Tokens like those of a model, with such behind them that are like those of another. -/
@[simp] theorem before_map_erase
    (model next : List Token) :
    Before model (fun ahead => ahead.map Token.erase = next) =
      fun ahead => ahead.map Token.erase = model ++ next := by
  funext ahead
  rw [List.map_eq_append_iff]
  exact propext Iff.rfl

theorem Spells.mono
    {form : Form}
    {tokens : List Token}
    {tree : form.Tree}
    {fits' : List Token → Prop}
    (spells : Spells form tokens tree fits)
    (fit : ∀ next, fits' next → fits next) :
    Spells form tokens tree fits' :=
  fun used next same fit' => spells used next same (fit next fit')

/-- What spells a form in front of anything does so in front of whatever fits. -/
theorem Spells.anywhere
    {form : Form}
    {tokens : List Token}
    {tree : form.Tree}
    (spells : Spells form tokens tree anything) :
    Spells form tokens tree fits :=
  spells.mono fun _ _ => trivial

/-- A form in front of tokens of which the first one fits behind it. -/
theorem Spells.before
    {form : Form}
    {tokens more : List Token}
    {tree : form.Tree}
    {model : Token}
    {fits' : List Token → Prop}
    (spells : Spells form tokens tree fits)
    (fit : ∀ token next, token.erase = model → fits (token :: next)) :
    Spells form tokens tree (Before (model :: more) fits') := by
  refine spells.mono ?_
  rintro _ ⟨used, next, rfl, same, _⟩
  obtain ⟨token, rest, rfl, tokenSame, _⟩ := List.map_eq_cons_iff.1 same
  exact fit token (rest ++ next) tokenSame

/-! ## Operations -/

section Operations

variable {tokens tokens₁ tokens₂ tokens₃ : List Token} {position : Position}

theorem Spells.assign
    {equals : Token}
    {target value : Expr}
    (targetSpells : Spells (.expression .ternary) tokens₁ target (Before (equals :: tokens₂) fits))
    (equalsKind : equals.kind = .sign .assign)
    (valueSpells : Spells (.expression .assignment) tokens₂ value fits) :
    Spells (.expression .assignment) (tokens₁ ++ equals :: tokens₂)
      (.assign position target value) fits := by
  intro used next same fit
  obtain ⟨used₁, tail, rfl, rfl, tailSame⟩ := List.map_eq_append_iff.1 same
  obtain ⟨equals, used₂, rfl, rfl, rfl⟩ := List.map_eq_cons_iff.1 tailSame
  obtain ⟨_, targetDerives, targetErased⟩ := targetSpells used₁ _ rfl (.cons (.last fit))
  obtain ⟨_, valueDerives, valueErased⟩ := valueSpells used₂ next rfl fit
  refine ⟨_, .assign targetDerives equalsKind valueDerives, ?_⟩
  simp only [Form.relabel, Expr.relabel] at targetErased valueErased ⊢
  rw [targetErased, valueErased]

theorem Spells.declare
    {colon word equals : Token}
    {flavour : Flavour}
    {place : Position}
    {name : String}
    {value : Expr}
    (targetSpells : Spells (.expression .ternary) tokens₁ (.name place name)
      (Before (colon :: word :: equals :: tokens₂) fits))
    (colonKind : colon.kind = .mark .colon)
    (wordFlavour : Rules.flavour? word = some flavour)
    (equalsKind : equals.kind = .sign .assign)
    (valueSpells : Spells (.expression .assignment) tokens₂ value fits) :
    Spells (.expression .assignment) (tokens₁ ++ colon :: word :: equals :: tokens₂)
      (.declare position flavour name value) fits := by
  intro used next same fit
  obtain ⟨used₁, tail, rfl, rfl, tailSame⟩ := List.map_eq_append_iff.1 same
  obtain ⟨colon, wordTail, rfl, rfl, wordTailSame⟩ := List.map_eq_cons_iff.1 tailSame
  obtain ⟨word, equalsTail, rfl, rfl, equalsTailSame⟩ := List.map_eq_cons_iff.1 wordTailSame
  obtain ⟨equals, used₂, rfl, rfl, rfl⟩ := List.map_eq_cons_iff.1 equalsTailSame
  obtain ⟨target', targetDerives, targetErased⟩ :=
    targetSpells used₁ _ rfl (.cons (.cons (.cons (.last fit))))
  obtain ⟨_, valueDerives, valueErased⟩ := valueSpells used₂ next rfl fit
  -- Only a name has the positions of a name left out.
  obtain ⟨place', rfl⟩ : ∃ place', target' = .name place' name := by
    cases target' <;> simp only [Form.relabel, Expr.relabel, reduceCtorEq] at targetErased
    exact ⟨_, congrArg (Expr.name _) (Expr.name.inj targetErased).2⟩
  exact ⟨_, .declare targetDerives colonKind wordFlavour equalsKind valueDerives,
    congrArg (Expr.declare .start flavour name) valueErased⟩

theorem Spells.choice
    {question colon : Token}
    {test consequent alternate : Expr}
    (testSpells : Spells (.expression (.chain .logical)) tokens₁ test
      (Before (question :: (tokens₂ ++ colon :: tokens₃)) fits))
    (questionKind : question.kind = .mark .question)
    (consequentSpells : Spells (.expression (.chain .logical)) tokens₂ consequent
      (Before (colon :: tokens₃) fits))
    (colonKind : colon.kind = .mark .colon)
    (alternateSpells : Spells (.expression .ternary) tokens₃ alternate fits) :
    Spells (.expression .ternary) (tokens₁ ++ question :: (tokens₂ ++ colon :: tokens₃))
      (.ternary position test consequent alternate) fits := by
  intro used next same fit
  obtain ⟨used₁, tail, rfl, rfl, tailSame⟩ := List.map_eq_append_iff.1 same
  obtain ⟨question, others, rfl, rfl, othersSame⟩ := List.map_eq_cons_iff.1 tailSame
  obtain ⟨used₂, colonTail, rfl, rfl, colonTailSame⟩ := List.map_eq_append_iff.1 othersSame
  obtain ⟨colon, used₃, rfl, rfl, rfl⟩ := List.map_eq_cons_iff.1 colonTailSame
  obtain ⟨_, testDerives, testErased⟩ :=
    testSpells used₁ _ rfl (.cons (.append rfl (.cons (.last fit))))
  obtain ⟨_, consequentDerives, consequentErased⟩ :=
    consequentSpells used₂ _ rfl (.cons (.last fit))
  obtain ⟨_, alternateDerives, alternateErased⟩ := alternateSpells used₃ next rfl fit
  refine ⟨_, .choice testDerives questionKind consequentDerives colonKind alternateDerives, ?_⟩
  simp only [Form.relabel, Expr.relabel] at testErased consequentErased alternateErased ⊢
  rw [testErased, consequentErased, alternateErased]

theorem Spells.operand
    {chain : Chain}
    {value : Expr}
    (spells : Spells (.expression chain.operand) tokens value fits) :
    Spells (.operations chain) tokens value fits := by
  intro used next same fit
  obtain ⟨parsed, derives, erased⟩ := spells used next same fit
  exact ⟨parsed, .operand derives, erased⟩

theorem Spells.operation
    {chain : Chain}
    {sign : Token}
    {operation : Position → Expr → Expr → Expr}
    {left right : Expr}
    (leftSpells : Spells (.operations chain) tokens₁ left (Before (sign :: tokens₂) fits))
    (found : chain.operation? sign = some operation)
    (rightSpells : Spells (.expression chain.operand) tokens₂ right fits) :
    Spells (.operations chain) (tokens₁ ++ sign :: tokens₂) (operation position left right)
      fits := by
  intro used next same fit
  obtain ⟨used₁, tail, rfl, rfl, tailSame⟩ := List.map_eq_append_iff.1 same
  obtain ⟨sign, used₂, rfl, rfl, rfl⟩ := List.map_eq_cons_iff.1 tailSame
  obtain ⟨_, leftDerives, leftErased⟩ := leftSpells used₁ _ rfl (.cons (.last fit))
  obtain ⟨_, rightDerives, rightErased⟩ := rightSpells used₂ next rfl fit
  refine ⟨_, .operation leftDerives ((chain.operation?_relabel sign).symm.trans found)
    rightDerives, ?_⟩
  simp only [Form.relabel] at leftErased rightErased ⊢
  rw [Chain.relabel_operation found, Chain.relabel_operation found, leftErased, rightErased]

theorem Spells.chain
    {chain : Chain}
    {value : Expr}
    (spells : Spells (.operations chain) tokens value fits)
    (ends : ∀ next, fits next → next.head?.bind chain.operation? = none) :
    Spells (.expression (.chain chain)) tokens value fits := by
  intro used next same fit
  obtain ⟨parsed, derives, erased⟩ := spells used next same fit
  exact ⟨parsed, .chain derives (ends next fit), erased⟩

/-- An operator before its operand takes its own position along. -/
theorem Spells.leading
    {sign : Token}
    {operation : Expr → Expr}
    {operand : Expr}
    (leads : ∀ token : Token, token.erase = sign →
      ∃ operation', Rules.leading? token = some operation' ∧
        ∀ operand' operand : Expr, operand'.erase = operand.erase →
          (operation' operand').erase = (operation operand).erase)
    (operandSpells : Spells (.expression .unary) tokens operand fits) :
    Spells (.expression .unary) (sign :: tokens) (operation operand) fits := by
  intro used next same fit
  obtain ⟨sign, rest, rfl, signSame, rfl⟩ := List.map_eq_cons_iff.1 same
  obtain ⟨operation', found, moves⟩ := leads sign signSame
  obtain ⟨_, derives, erased⟩ := operandSpells rest next rfl fit
  exact ⟨_, .leading found derives, moves _ _ erased⟩

theorem Spells.trailing
    {sign : Token}
    {op : StepOp}
    {operand : Expr}
    (operandSpells : Spells (.expression .suffixed) tokens operand (Before [sign] fits))
    (found : Rules.trailing? sign = some op) :
    Spells (.expression .unary) (tokens ++ [sign]) (.step position .behind op operand) fits := by
  intro used next same fit
  obtain ⟨used, tail, rfl, rfl, tailSame⟩ := List.map_eq_append_iff.1 same
  obtain ⟨sign, rfl, rfl⟩ := List.map_eq_singleton_iff.1 tailSame
  obtain ⟨_, derives, erased⟩ := operandSpells used _ rfl (.cons (.nil fit))
  exact ⟨_, .trailing derives found, congrArg (Expr.step .start .behind op) erased⟩

theorem Spells.suffixed
    {value : Expr}
    (spells : Spells .accesses tokens value fits)
    (ends : ∀ next, fits next → EndsAccesses next) :
    Spells (.expression .suffixed) tokens value fits := by
  intro used next same fit
  obtain ⟨parsed, derives, erased⟩ := spells used next same fit
  exact ⟨parsed, .suffixed derives (ends next fit), erased⟩

theorem Spells.subject
    {value : Expr}
    (spells : Spells (.expression .primary) tokens value fits) :
    Spells .accesses tokens value fits := by
  intro used next same fit
  obtain ⟨parsed, derives, erased⟩ := spells used next same fit
  exact ⟨parsed, .subject derives, erased⟩

theorem Spells.call
    {opening : Token}
    {callee : Expr}
    {arguments : List Expr}
    (calleeSpells : Spells .accesses tokens₁ callee (Before (opening :: tokens₂) fits))
    (openingKind : opening.kind = .mark .openParen)
    (argumentsSpell : Spells (.list .closeParen .value) tokens₂ arguments fits) :
    Spells .accesses (tokens₁ ++ opening :: tokens₂) (.call position callee arguments) fits := by
  intro used next same fit
  obtain ⟨used₁, tail, rfl, rfl, tailSame⟩ := List.map_eq_append_iff.1 same
  obtain ⟨opening, used₂, rfl, rfl, rfl⟩ := List.map_eq_cons_iff.1 tailSame
  obtain ⟨_, calleeDerives, calleeErased⟩ := calleeSpells used₁ _ rfl (.cons (.last fit))
  obtain ⟨_, argumentsDerive, argumentsErased⟩ := argumentsSpell used₂ next rfl fit
  refine ⟨_, .call calleeDerives openingKind argumentsDerive, ?_⟩
  simp only [Form.relabel, Item.relabel, Expr.relabel, Expr.relabelAll_eq_map]
    at calleeErased argumentsErased ⊢
  rw [calleeErased, argumentsErased]

theorem Spells.member
    {dot key : Token}
    {subject : Expr}
    (subjectSpells : Spells .accesses tokens subject (Before [dot, key] fits))
    (dotKind : dot.kind = .mark .dot)
    (keyKind : key.kind = .identifier ∨ ∃ word, key.kind = .keyword word) :
    Spells .accesses (tokens ++ [dot, key]) (.member position subject key.lexeme) fits := by
  intro used next same fit
  obtain ⟨used, tail, rfl, rfl, tailSame⟩ := List.map_eq_append_iff.1 same
  obtain ⟨dot, keyTail, rfl, rfl, keyTailSame⟩ := List.map_eq_cons_iff.1 tailSame
  obtain ⟨key, rfl, rfl⟩ := List.map_eq_singleton_iff.1 keyTailSame
  obtain ⟨_, derives, erased⟩ := subjectSpells used _ rfl (.cons (.cons (.nil fit)))
  refine ⟨_, .member derives dotKind keyKind, ?_⟩
  simp only [Form.relabel, Expr.relabel] at erased ⊢
  rw [erased]
  rfl

theorem Spells.index
    {newlines₁ newlines₂ : List Token}
    {opening closing : Token}
    {subject key : Expr}
    (subjectSpells : Spells .accesses tokens₁ subject
      (Before (opening :: (newlines₁ ++ tokens₂ ++ newlines₂ ++ [closing])) fits))
    (openingKind : opening.kind = .mark .openBracket)
    (newlinesBefore : Newlines newlines₁)
    (keySpells : Spells (.expression .assignment) tokens₂ key
      (Before (newlines₂ ++ [closing]) fits))
    (newlinesBehind : Newlines newlines₂)
    (closingKind : closing.kind = .mark .closeBracket) :
    Spells .accesses (tokens₁ ++ opening :: (newlines₁ ++ tokens₂ ++ newlines₂ ++ [closing]))
      (.index position subject key) fits := by
  intro used next same fit
  obtain ⟨used₁, tail, rfl, rfl, tailSame⟩ := List.map_eq_append_iff.1 same
  obtain ⟨opening, rest, rfl, rfl, restSame⟩ := List.map_eq_cons_iff.1 tailSame
  obtain ⟨inner, closingTail, rfl, innerSame, closingTailSame⟩ := List.map_eq_append_iff.1 restSame
  obtain ⟨front, newlines₂, rfl, frontSame, rfl⟩ := List.map_eq_append_iff.1 innerSame
  obtain ⟨newlines₁, used₂, rfl, rfl, rfl⟩ := List.map_eq_append_iff.1 frontSame
  obtain ⟨closing, rfl, rfl⟩ := List.map_eq_singleton_iff.1 closingTailSame
  obtain ⟨_, subjectDerives, subjectErased⟩ :=
    subjectSpells used₁ _ rfl (.cons (.append innerSame (.cons (.nil fit))))
  obtain ⟨_, keyDerives, keyErased⟩ := keySpells used₂ _ rfl (.append rfl (.cons (.nil fit)))
  refine ⟨_, .index subjectDerives openingKind newlinesBefore.of_map_erase keyDerives
    newlinesBehind.of_map_erase closingKind, ?_⟩
  simp only [Form.relabel, Expr.relabel] at subjectErased keyErased ⊢
  rw [subjectErased, keyErased]

end Operations

/-! ## Values that are no operation -/

section Values

variable {tokens : List Token} {token : Token} {position : Position}

theorem spells_name
    (kind : token.kind = .identifier) :
    Spells (.expression .primary) [token] (.name position token.lexeme) fits := by
  intro used next same _
  obtain ⟨token, rfl, rfl⟩ := List.map_eq_singleton_iff.1 same
  exact ⟨_, .name kind, rfl⟩

theorem spells_number
    {value : Float}
    (kind : token.kind = .int ∨ token.kind = .float)
    (reads : Number.read? token.lexeme.toList = some value) :
    Spells (.expression .primary) [token] (.number position value) fits := by
  intro used next same _
  obtain ⟨token, rfl, rfl⟩ := List.map_eq_singleton_iff.1 same
  exact ⟨_, .number kind reads, rfl⟩

theorem spells_text
    (kind : token.kind = .string) :
    Spells (.expression .primary) [token] (.text position token.lexeme) fits := by
  intro used next same _
  obtain ⟨token, rfl, rfl⟩ := List.map_eq_singleton_iff.1 same
  exact ⟨_, .text kind, rfl⟩

theorem spells_truth
    (kind : token.kind = .keyword .trueWord) :
    Spells (.expression .primary) [token] (.bool position true) fits := by
  intro used next same _
  obtain ⟨token, rfl, rfl⟩ := List.map_eq_singleton_iff.1 same
  exact ⟨_, .truth kind, rfl⟩

theorem spells_falsehood
    (kind : token.kind = .keyword .falseWord) :
    Spells (.expression .primary) [token] (.bool position false) fits := by
  intro used next same _
  obtain ⟨token, rfl, rfl⟩ := List.map_eq_singleton_iff.1 same
  exact ⟨_, .falsehood kind, rfl⟩

theorem spells_undefined
    (kind : token.kind = .keyword .undefWord) :
    Spells (.expression .primary) [token] (.undefined position) fits := by
  intro used next same _
  obtain ⟨token, rfl, rfl⟩ := List.map_eq_singleton_iff.1 same
  exact ⟨_, .undefined kind, rfl⟩

theorem Spells.typeof
    {operand : Expr}
    (keywordKind : token.kind = .keyword .typeofWord)
    (spells : Spells (.expression .unary) tokens operand fits) :
    Spells (.expression .primary) (token :: tokens) (.typeof position operand) fits := by
  intro used next same fit
  obtain ⟨keyword, rest, rfl, rfl, rfl⟩ := List.map_eq_cons_iff.1 same
  obtain ⟨_, derives, erased⟩ := spells rest next rfl fit
  exact ⟨_, .typeof keywordKind derives, congrArg (Expr.typeof .start) erased⟩

theorem Spells.lambda
    {value : Expr}
    (spells : Spells (.function false) tokens value fits) :
    Spells (.expression .primary) tokens value fits := by
  intro used next same fit
  obtain ⟨parsed, derives, erased⟩ := spells used next same fit
  exact ⟨parsed, .lambda derives, erased⟩

theorem Spells.grouped
    {newlines₁ newlines₂ : List Token}
    {closing : Token}
    {value : Expr}
    (openingKind : token.kind = .mark .openParen)
    (newlinesBefore : Newlines newlines₁)
    (spells : Spells (.expression .assignment) tokens value (Before (newlines₂ ++ [closing]) fits))
    (newlinesBehind : Newlines newlines₂)
    (closingKind : closing.kind = .mark .closeParen) :
    Spells (.expression .primary) (token :: (newlines₁ ++ tokens ++ newlines₂ ++ [closing])) value
      fits := by
  intro used next same fit
  obtain ⟨opening, rest, rfl, rfl, restSame⟩ := List.map_eq_cons_iff.1 same
  obtain ⟨inner, closingTail, rfl, innerSame, closingTailSame⟩ := List.map_eq_append_iff.1 restSame
  obtain ⟨front, newlines₂, rfl, frontSame, rfl⟩ := List.map_eq_append_iff.1 innerSame
  obtain ⟨newlines₁, used, rfl, rfl, rfl⟩ := List.map_eq_append_iff.1 frontSame
  obtain ⟨closing, rfl, rfl⟩ := List.map_eq_singleton_iff.1 closingTailSame
  obtain ⟨parsed, derives, erased⟩ := spells used _ rfl (.append rfl (.cons (.nil fit)))
  exact ⟨parsed, .grouped openingKind newlinesBefore.of_map_erase derives
    newlinesBehind.of_map_erase closingKind, erased⟩

theorem Spells.array
    {items : List Expr}
    (openingKind : token.kind = .mark .openBracket)
    (spells : Spells (.list .closeBracket .value) tokens items fits) :
    Spells (.expression .primary) (token :: tokens) (.array position items) fits := by
  intro used next same fit
  obtain ⟨opening, rest, rfl, rfl, rfl⟩ := List.map_eq_cons_iff.1 same
  obtain ⟨_, derives, erased⟩ := spells rest next rfl fit
  refine ⟨_, .array openingKind derives, ?_⟩
  simp only [Form.relabel, Expr.relabel, Expr.relabelAll_eq_map]
  exact congrArg (Expr.array .start) erased

theorem Spells.object
    {fields : List Field}
    (openingKind : token.kind = .mark .openBrace)
    (spells : Spells (.list .closeBrace .field) tokens fields fits) :
    Spells (.expression .primary) (token :: tokens) (.object position fields) fits := by
  intro used next same fit
  obtain ⟨opening, rest, rfl, rfl, rfl⟩ := List.map_eq_cons_iff.1 same
  obtain ⟨_, derives, erased⟩ := spells rest next rfl fit
  refine ⟨_, .object openingKind derives, ?_⟩
  simp only [Form.relabel, Expr.relabel, Field.relabelAll_eq_map]
  exact congrArg (Expr.object .start) erased

end Values

/-! ## Functions -/

section Functions

variable {tokens tokens₁ tokens₂ : List Token} {keyword : Token} {position : Position}
variable {exported : Bool} {parameters : List Parameter} {body : List Stmt}

theorem Spells.calledOnTheSpot
    {colon₁ colon₂ : Token}
    {value : Expr}
    {place place' : Position}
    (keywordKind : keyword.kind = .keyword .fnWord ∨ keyword.kind = .keyword .lambdaWord)
    (colonKind₁ : colon₁.kind = .mark .colon)
    (colonKind₂ : colon₂.kind = .mark .colon)
    (spells : Spells (.expression .assignment) tokens value fits) :
    Spells (.function exported) (keyword :: colon₁ :: colon₂ :: tokens)
      (.call position (.function place none exported [] [.returnValue place' value]) []) fits := by
  intro used next same fit
  obtain ⟨keyword, tail, rfl, rfl, tailSame⟩ := List.map_eq_cons_iff.1 same
  obtain ⟨colon₁, colonTail, rfl, rfl, colonTailSame⟩ := List.map_eq_cons_iff.1 tailSame
  obtain ⟨colon₂, rest, rfl, rfl, rfl⟩ := List.map_eq_cons_iff.1 colonTailSame
  obtain ⟨_, derives, erased⟩ := spells rest next rfl fit
  refine ⟨_, .calledOnTheSpot keywordKind colonKind₁ colonKind₂ derives, ?_⟩
  simp only [Form.relabel, Expr.relabel, Rules.returnBody, Stmt.relabelAll_eq_map, List.map_cons,
    List.map_nil, Stmt.relabel] at erased ⊢
  rw [erased]

theorem Spells.named
    {name : Token}
    (keywordKind : keyword.kind = .keyword .fnWord)
    (nameKind : name.kind = .identifier)
    (parametersSpell : Spells .parameters tokens₁ parameters (Before tokens₂ fits))
    (bodySpells : Spells .functionBody tokens₂ body fits) :
    Spells (.function exported) (keyword :: name :: (tokens₁ ++ tokens₂))
      (.function position (some name.lexeme) exported parameters body) fits := by
  intro used next same fit
  obtain ⟨keyword, tail, rfl, rfl, tailSame⟩ := List.map_eq_cons_iff.1 same
  obtain ⟨name, rest, rfl, rfl, restSame⟩ := List.map_eq_cons_iff.1 tailSame
  obtain ⟨used₁, used₂, rfl, rfl, rfl⟩ := List.map_eq_append_iff.1 restSame
  obtain ⟨_, parametersDerive, parametersErased⟩ := parametersSpell used₁ _ rfl (.last fit)
  obtain ⟨_, bodyDerives, bodyErased⟩ := bodySpells used₂ next rfl fit
  refine ⟨_, .named keywordKind nameKind parametersDerive bodyDerives, ?_⟩
  simp only [Form.relabel, Expr.relabel, Stmt.relabelAll_eq_map, Parameter.relabelAll_eq_map]
    at parametersErased bodyErased ⊢
  rw [parametersErased, bodyErased]
  rfl

theorem Spells.unnamed
    (keywordKind : keyword.kind = .keyword .fnWord ∧ kindAhead (tokens₁ ++ tokens₂) ≠ .identifier ∨
      keyword.kind = .keyword .lambdaWord)
    (noColon : kindAhead (tokens₁ ++ tokens₂) ≠ .mark .colon)
    (parametersSpell : Spells .parameters tokens₁ parameters (Before tokens₂ fits))
    (bodySpells : Spells .functionBody tokens₂ body fits) :
    Spells (.function exported) (keyword :: (tokens₁ ++ tokens₂))
      (.function position none exported parameters body) fits := by
  intro used next same fit
  obtain ⟨keyword, rest, rfl, rfl, restSame⟩ := List.map_eq_cons_iff.1 same
  rw [← restSame, kindAhead_map_erase] at keywordKind noColon
  obtain ⟨used₁, used₂, rfl, rfl, rfl⟩ := List.map_eq_append_iff.1 restSame
  obtain ⟨_, parametersDerive, parametersErased⟩ := parametersSpell used₁ _ rfl (.last fit)
  obtain ⟨_, bodyDerives, bodyErased⟩ := bodySpells used₂ next rfl fit
  refine ⟨_, .unnamed keywordKind noColon parametersDerive bodyDerives, ?_⟩
  simp only [Form.relabel, Expr.relabel, Stmt.relabelAll_eq_map, Parameter.relabelAll_eq_map]
    at parametersErased bodyErased ⊢
  rw [parametersErased, bodyErased]

theorem Spells.functionBlock
    (spells : Spells .block tokens body fits) :
    Spells .functionBody tokens body fits := by
  intro used next same fit
  obtain ⟨parsed, derives, erased⟩ := spells used next same fit
  exact ⟨parsed, .functionBlock derives, erased⟩

theorem Spells.listedParameters
    {opening : Token}
    (openingKind : opening.kind = .mark .openParen)
    (spells : Spells (.list .closeParen .parameter) tokens parameters fits) :
    Spells .parameters (opening :: tokens) parameters fits := by
  intro used next same fit
  obtain ⟨opening, rest, rfl, rfl, rfl⟩ := List.map_eq_cons_iff.1 same
  obtain ⟨parsed, derives, erased⟩ := spells rest next rfl fit
  exact ⟨parsed, .listedParameters openingKind derives, erased⟩

theorem spells_requiredParameter
    {name : Token}
    (nameKind : name.kind = .identifier)
    (noDefault : ∀ next, fits next → kindAhead next ≠ .sign .assign) :
    Spells (.item .parameter) [name] (.required name.lexeme) fits := by
  intro used next same fit
  obtain ⟨name, rfl, rfl⟩ := List.map_eq_singleton_iff.1 same
  exact ⟨_, .requiredParameter nameKind (noDefault next fit), rfl⟩

theorem Spells.optionalParameter
    {name equals : Token}
    {default : Expr}
    (nameKind : name.kind = .identifier)
    (equalsKind : equals.kind = .sign .assign)
    (spells : Spells (.expression .ternary) tokens default fits) :
    Spells (.item .parameter) (name :: equals :: tokens) (.optional name.lexeme default) fits := by
  intro used next same fit
  obtain ⟨name, tail, rfl, rfl, tailSame⟩ := List.map_eq_cons_iff.1 same
  obtain ⟨equals, rest, rfl, rfl, rfl⟩ := List.map_eq_cons_iff.1 tailSame
  obtain ⟨_, derives, erased⟩ := spells rest next rfl fit
  exact ⟨_, .optionalParameter nameKind equalsKind derives,
    congrArg (Parameter.optional name.lexeme) erased⟩

end Functions

/-! ## Lists -/

section Lists

variable {tokens tokens₁ tokens₂ newlines newlines₁ newlines₂ : List Token}
variable {mark : Mark} {item : Item}

theorem Spells.value
    {value : Expr}
    (spells : Spells (.expression .assignment) tokens value fits) :
    Spells (.item .value) tokens value fits := by
  intro used next same fit
  obtain ⟨parsed, derives, erased⟩ := spells used next same fit
  exact ⟨parsed, .value derives, erased⟩

theorem Spells.field
    {key colon : Token}
    {value : Expr}
    (keyKind : key.kind = .identifier ∨ key.kind = .string)
    (newlinesBefore : Newlines newlines₁)
    (colonKind : colon.kind = .mark .colon)
    (newlinesBehind : Newlines newlines₂)
    (spells : Spells (.expression .assignment) tokens value fits) :
    Spells (.item .field) (key :: (newlines₁ ++ colon :: (newlines₂ ++ tokens)))
      (.mk key.lexeme value) fits := by
  intro used next same fit
  obtain ⟨key, tail, rfl, rfl, tailSame⟩ := List.map_eq_cons_iff.1 same
  obtain ⟨newlines₁, colonTail, rfl, rfl, colonTailSame⟩ := List.map_eq_append_iff.1 tailSame
  obtain ⟨colon, valueTail, rfl, rfl, valueTailSame⟩ := List.map_eq_cons_iff.1 colonTailSame
  obtain ⟨newlines₂, rest, rfl, rfl, rfl⟩ := List.map_eq_append_iff.1 valueTailSame
  obtain ⟨_, derives, erased⟩ := spells rest next rfl fit
  exact ⟨_, .field keyKind newlinesBefore.of_map_erase colonKind newlinesBehind.of_map_erase
    derives, congrArg (Field.mk key.lexeme) erased⟩

theorem spells_key
    {key : Token}
    {position : Position}
    (keyKind : key.kind = .identifier ∨ key.kind = .string)
    (newlinesBehind : Newlines newlines)
    (ends : ∀ next, fits next →
      kindAhead next = .mark .comma ∨ kindAhead next = .mark .closeBrace) :
    Spells (.item .field) (key :: newlines) (.mk key.lexeme (.name position key.lexeme))
      fits := by
  intro used next same fit
  obtain ⟨key, newlines, rfl, rfl, rfl⟩ := List.map_eq_cons_iff.1 same
  exact ⟨_, .shorthand keyKind newlinesBehind.of_map_erase (ends next fit), rfl⟩

theorem Spells.list
    {items : List item.Tree}
    (newlinesBefore : Newlines newlines)
    (spells : Spells (.items mark item) tokens items fits) :
    Spells (.list mark item) (newlines ++ tokens) items fits := by
  intro used next same fit
  obtain ⟨newlines, rest, rfl, rfl, rfl⟩ := List.map_eq_append_iff.1 same
  obtain ⟨parsed, derives, erased⟩ := spells rest next rfl fit
  exact ⟨parsed, .list newlinesBefore.of_map_erase derives, erased⟩

theorem spells_noItems
    {closing : Token}
    (closingKind : closing.kind = .mark mark) :
    Spells (.items mark item) [closing] [] fits := by
  intro used next same _
  obtain ⟨closing, rfl, rfl⟩ := List.map_eq_singleton_iff.1 same
  exact ⟨_, .noItems closingKind, rfl⟩

theorem Spells.lastItem
    {closing : Token}
    {last : item.Tree}
    (spells : Spells (.item item) tokens last (Before (newlines ++ [closing]) fits))
    (newlinesBehind : Newlines newlines)
    (closingKind : closing.kind = .mark mark) :
    Spells (.items mark item) (tokens ++ newlines ++ [closing]) [last] fits := by
  intro used next same fit
  obtain ⟨tail, closingTail, rfl, tailSame, closingTailSame⟩ := List.map_eq_append_iff.1 same
  obtain ⟨used, newlines, rfl, rfl, rfl⟩ := List.map_eq_append_iff.1 tailSame
  obtain ⟨closing, rfl, rfl⟩ := List.map_eq_singleton_iff.1 closingTailSame
  obtain ⟨_, derives, erased⟩ := spells used _ rfl (.append rfl (.cons (.nil fit)))
  exact ⟨_, .lastItem derives newlinesBehind.of_map_erase closingKind,
    congrArg (fun item => [item]) erased⟩

theorem Spells.moreItems
    {comma : Token}
    {first : item.Tree}
    {others : List item.Tree}
    (firstSpells : Spells (.item item) tokens₁ first
      (Before (newlines₁ ++ comma :: (newlines₂ ++ tokens₂)) fits))
    (newlinesBefore : Newlines newlines₁)
    (commaKind : comma.kind = .mark .comma)
    (newlinesBehind : Newlines newlines₂)
    (othersSpell : Spells (.items mark item) tokens₂ others fits) :
    Spells (.items mark item) (tokens₁ ++ newlines₁ ++ comma :: (newlines₂ ++ tokens₂))
      (first :: others) fits := by
  intro used next same fit
  obtain ⟨front, commaTail, rfl, frontSame, commaTailSame⟩ := List.map_eq_append_iff.1 same
  obtain ⟨used₁, newlines₁, rfl, rfl, rfl⟩ := List.map_eq_append_iff.1 frontSame
  obtain ⟨comma, rest, rfl, rfl, restSame⟩ := List.map_eq_cons_iff.1 commaTailSame
  obtain ⟨newlines₂, used₂, rfl, rfl, rfl⟩ := List.map_eq_append_iff.1 restSame
  have ahead : Before (newlines₂.map Token.erase ++ used₂.map Token.erase) fits
      (newlines₂ ++ used₂ ++ next) := by
    rw [← restSame]
    exact .last fit
  obtain ⟨_, firstDerives, firstErased⟩ := firstSpells used₁ _ rfl (.append rfl (.cons ahead))
  obtain ⟨_, othersDerive, othersErased⟩ := othersSpell used₂ next rfl fit
  refine ⟨_, .moreItems firstDerives newlinesBefore.of_map_erase commaKind
    newlinesBehind.of_map_erase othersDerive, ?_⟩
  simp only [Form.relabel, List.map_cons] at firstErased othersErased ⊢
  rw [firstErased, othersErased]

end Lists

/-! ## Blocks -/

section Blocks

variable {tokens tokens₁ tokens₂ separators : List Token}
variable {statement : Stmt} {statements : List Stmt}

theorem Spells.block
    {opening closing : Token}
    (openingKind : opening.kind = .mark .openBrace)
    (separated : Separators separators)
    (spells : Spells .statements tokens statements (Before [closing] fits))
    (closingKind : closing.kind = .mark .closeBrace) :
    Spells .block (opening :: (separators ++ tokens ++ [closing])) statements fits := by
  intro used next same fit
  obtain ⟨opening, rest, rfl, rfl, restSame⟩ := List.map_eq_cons_iff.1 same
  obtain ⟨inner, closingTail, rfl, innerSame, closingTailSame⟩ := List.map_eq_append_iff.1 restSame
  obtain ⟨separators, used, rfl, rfl, rfl⟩ := List.map_eq_append_iff.1 innerSame
  obtain ⟨closing, rfl, rfl⟩ := List.map_eq_singleton_iff.1 closingTailSame
  obtain ⟨parsed, derives, erased⟩ := spells used _ rfl (.cons (.nil fit))
  exact ⟨parsed, .block openingKind separated.of_map_erase derives closingKind, erased⟩

theorem Spells.bodyBlock
    (spells : Spells .block tokens statements fits) :
    Spells .body tokens statements fits := by
  intro used next same fit
  obtain ⟨parsed, derives, erased⟩ := spells used next same fit
  exact ⟨parsed, .bodyBlock derives, erased⟩

theorem Spells.elseBlock
    (spells : Spells .block tokens statements fits) :
    Spells .alternative tokens statements fits := by
  intro used next same fit
  obtain ⟨parsed, derives, erased⟩ := spells used next same fit
  exact ⟨parsed, .elseBlock derives, erased⟩

theorem spells_noStatements
    (ends : ∀ next, fits next → kindAhead next = .mark .closeBrace ∨ kindAhead next = .eof) :
    Spells .statements [] [] fits := by
  intro used next same fit
  obtain rfl := List.map_eq_nil_iff.1 same
  exact ⟨_, .noStatements (ends next fit), rfl⟩

theorem Spells.moreStatements
    (spells : Spells .statement tokens₁ statement (Before (separators ++ tokens₂) fits))
    (separated : Separators separators)
    (othersSpell : Spells .statements tokens₂ statements fits) :
    Spells .statements (tokens₁ ++ separators ++ tokens₂) (statement :: statements) fits := by
  intro used next same fit
  obtain ⟨front, used₂, rfl, frontSame, rfl⟩ := List.map_eq_append_iff.1 same
  obtain ⟨used₁, separators, rfl, rfl, rfl⟩ := List.map_eq_append_iff.1 frontSame
  have ahead : Before (separators.map Token.erase ++ used₂.map Token.erase) fits
      (separators ++ used₂ ++ next) := by
    rw [List.append_assoc]
    exact .append rfl (.last fit)
  obtain ⟨_, derives, erased⟩ := spells used₁ _ rfl ahead
  obtain ⟨_, othersDerive, othersErased⟩ := othersSpell used₂ next rfl fit
  refine ⟨_, .moreStatements derives separated.of_map_erase othersDerive, ?_⟩
  simp only [Form.relabel, List.map_cons] at erased othersErased ⊢
  rw [erased, othersErased]

theorem Spells.ended
    {semicolon : Token}
    (spells : Spells .bareStatement tokens statement (Before [semicolon] fits))
    (semicolonKind : semicolon.kind = .mark .semicolon) :
    Spells .statement (tokens ++ [semicolon]) statement fits := by
  intro used next same fit
  obtain ⟨used, tail, rfl, rfl, tailSame⟩ := List.map_eq_append_iff.1 same
  obtain ⟨semicolon, rfl, rfl⟩ := List.map_eq_singleton_iff.1 tailSame
  obtain ⟨parsed, derives, erased⟩ := spells used _ rfl (.cons (.nil fit))
  exact ⟨parsed, .ended derives semicolonKind, erased⟩

end Blocks

/-! ## Statements -/

section Statements

variable {tokens tokens₁ tokens₂ tokens₃ tokens₄ newlines : List Token}
variable {keyword : Token} {position : Position}

theorem Spells.branchStatement
    {statement : Stmt}
    (spells : Spells .branch tokens statement fits) :
    Spells .bareStatement tokens statement fits := by
  intro used next same fit
  obtain ⟨parsed, derives, erased⟩ := spells used next same fit
  exact ⟨parsed, .branchStatement derives, erased⟩

theorem Spells.ifElse
    {otherwise : Token}
    {test : Expr}
    {consequent alternate : List Stmt}
    (keywordKind : keyword.kind = .keyword .ifWord)
    (testSpells : Spells (.expression .assignment) tokens₁ test
      (Before (tokens₂ ++ newlines ++ otherwise :: tokens₃) fits))
    (consequentSpells : Spells .body tokens₂ consequent
      (Before (newlines ++ otherwise :: tokens₃) fits))
    (newlinesBefore : Newlines newlines)
    (otherwiseKind : otherwise.kind = .keyword .elseWord)
    (alternateSpells : Spells .alternative tokens₃ alternate fits) :
    Spells .branch (keyword :: (tokens₁ ++ tokens₂ ++ newlines ++ otherwise :: tokens₃))
      (.branch position test consequent alternate) fits := by
  intro used next same fit
  obtain ⟨keyword, rest, rfl, rfl, restSame⟩ := List.map_eq_cons_iff.1 same
  obtain ⟨front, elseTail, rfl, frontSame, elseTailSame⟩ := List.map_eq_append_iff.1 restSame
  obtain ⟨inner, newlines, rfl, innerSame, rfl⟩ := List.map_eq_append_iff.1 frontSame
  obtain ⟨used₁, used₂, rfl, rfl, rfl⟩ := List.map_eq_append_iff.1 innerSame
  obtain ⟨otherwise, used₃, rfl, rfl, rfl⟩ := List.map_eq_cons_iff.1 elseTailSame
  have ahead : Before (otherwise.erase :: used₃.map Token.erase) fits
      (otherwise :: (used₃ ++ next)) :=
    .cons (.last fit)
  obtain ⟨_, testDerives, testErased⟩ := testSpells used₁ _ rfl (.append List.map_append ahead)
  obtain ⟨_, consequentDerives, consequentErased⟩ :=
    consequentSpells used₂ _ rfl (.append rfl ahead)
  obtain ⟨_, alternateDerives, alternateErased⟩ := alternateSpells used₃ next rfl fit
  refine ⟨_, .ifElse keywordKind testDerives consequentDerives newlinesBefore.of_map_erase
    otherwiseKind alternateDerives, ?_⟩
  simp only [Form.relabel, Stmt.relabel, Stmt.relabelAll_eq_map]
    at testErased consequentErased alternateErased ⊢
  rw [testErased, consequentErased, alternateErased]

theorem Spells.ifOnly
    {test : Expr}
    {consequent : List Stmt}
    (keywordKind : keyword.kind = .keyword .ifWord)
    (testSpells : Spells (.expression .assignment) tokens₁ test (Before tokens₂ fits))
    (consequentSpells : Spells .body tokens₂ consequent fits)
    (noElse : ∀ next, fits next →
      kindAhead (next.dropWhile (·.kind == .newline)) ≠ .keyword .elseWord) :
    Spells .branch (keyword :: (tokens₁ ++ tokens₂)) (.branch position test consequent [])
      fits := by
  intro used next same fit
  obtain ⟨keyword, rest, rfl, rfl, restSame⟩ := List.map_eq_cons_iff.1 same
  obtain ⟨used₁, used₂, rfl, rfl, rfl⟩ := List.map_eq_append_iff.1 restSame
  obtain ⟨_, testDerives, testErased⟩ := testSpells used₁ _ rfl (.last fit)
  obtain ⟨_, consequentDerives, consequentErased⟩ := consequentSpells used₂ next rfl fit
  refine ⟨_, .ifOnly keywordKind testDerives consequentDerives (noElse next fit), ?_⟩
  simp only [Form.relabel, Stmt.relabel, Stmt.relabelAll_eq_map] at testErased consequentErased ⊢
  rw [testErased, consequentErased]

theorem Spells.whileLoop
    {test : Expr}
    {body : List Stmt}
    (keywordKind : keyword.kind = .keyword .whileWord)
    (testSpells : Spells (.expression .assignment) tokens₁ test (Before tokens₂ fits))
    (bodySpells : Spells .body tokens₂ body fits) :
    Spells .bareStatement (keyword :: (tokens₁ ++ tokens₂)) (.whileLoop position test body)
      fits := by
  intro used next same fit
  obtain ⟨keyword, rest, rfl, rfl, restSame⟩ := List.map_eq_cons_iff.1 same
  obtain ⟨used₁, used₂, rfl, rfl, rfl⟩ := List.map_eq_append_iff.1 restSame
  obtain ⟨_, testDerives, testErased⟩ := testSpells used₁ _ rfl (.last fit)
  obtain ⟨_, bodyDerives, bodyErased⟩ := bodySpells used₂ next rfl fit
  refine ⟨_, .whileLoop keywordKind testDerives bodyDerives, ?_⟩
  simp only [Form.relabel, Stmt.relabel, Stmt.relabelAll_eq_map] at testErased bodyErased ⊢
  rw [testErased, bodyErased]

theorem Spells.forLoop
    {semicolon₁ semicolon₂ : Token}
    {start test update : Expr}
    {body : List Stmt}
    (keywordKind : keyword.kind = .keyword .forWord)
    (startSpells : Spells (.expression .assignment) tokens₁ start
      (Before (semicolon₁ :: (tokens₂ ++ semicolon₂ :: (tokens₃ ++ tokens₄))) fits))
    (semicolonKind₁ : semicolon₁.kind = .mark .semicolon)
    (testSpells : Spells (.expression .assignment) tokens₂ test
      (Before (semicolon₂ :: (tokens₃ ++ tokens₄)) fits))
    (semicolonKind₂ : semicolon₂.kind = .mark .semicolon)
    (updateSpells : Spells (.expression .assignment) tokens₃ update (Before tokens₄ fits))
    (bodySpells : Spells .block tokens₄ body fits) :
    Spells .bareStatement
      (keyword :: (tokens₁ ++ semicolon₁ :: (tokens₂ ++ semicolon₂ :: (tokens₃ ++ tokens₄))))
      (.forLoop position start test update body) fits := by
  intro used next same fit
  obtain ⟨keyword, rest, rfl, rfl, restSame⟩ := List.map_eq_cons_iff.1 same
  obtain ⟨used₁, startTail, rfl, rfl, startTailSame⟩ := List.map_eq_append_iff.1 restSame
  obtain ⟨semicolon₁, testHead, rfl, rfl, testHeadSame⟩ := List.map_eq_cons_iff.1 startTailSame
  obtain ⟨used₂, testTail, rfl, rfl, testTailSame⟩ := List.map_eq_append_iff.1 testHeadSame
  obtain ⟨semicolon₂, updateHead, rfl, rfl, updateHeadSame⟩ := List.map_eq_cons_iff.1 testTailSame
  obtain ⟨used₃, used₄, rfl, rfl, rfl⟩ := List.map_eq_append_iff.1 updateHeadSame
  have ahead : Before (semicolon₂.erase :: (used₃.map Token.erase ++ used₄.map Token.erase)) fits
      (semicolon₂ :: (used₃ ++ used₄ ++ next)) := by
    rw [← updateHeadSame]
    exact .cons (.last fit)
  obtain ⟨_, startDerives, startErased⟩ := startSpells used₁ _ rfl (.cons (.append rfl ahead))
  obtain ⟨_, testDerives, testErased⟩ := testSpells used₂ _ rfl ahead
  obtain ⟨_, updateDerives, updateErased⟩ := updateSpells used₃ _ rfl (.last fit)
  obtain ⟨_, bodyDerives, bodyErased⟩ := bodySpells used₄ next rfl fit
  refine ⟨_, .forLoop keywordKind startDerives semicolonKind₁ testDerives semicolonKind₂
    updateDerives bodyDerives, ?_⟩
  simp only [Form.relabel, Stmt.relabel, Stmt.relabelAll_eq_map]
    at startErased testErased updateErased bodyErased ⊢
  rw [startErased, testErased, updateErased, bodyErased]

theorem Spells.returnValue
    {value : Expr}
    (keywordKind : keyword.kind = .keyword .returnWord)
    (spells : Spells (.expression .assignment) tokens value fits) :
    Spells .bareStatement (keyword :: tokens) (.returnValue position value) fits := by
  intro used next same fit
  obtain ⟨keyword, rest, rfl, rfl, rfl⟩ := List.map_eq_cons_iff.1 same
  obtain ⟨_, derives, erased⟩ := spells rest next rfl fit
  exact ⟨_, .returnValue keywordKind derives, congrArg (Stmt.returnValue .start) erased⟩

theorem spells_returnNothing
    (keywordKind : keyword.kind = .keyword .returnWord)
    (ends : ∀ next, fits next → kindAhead next = .newline ∨ kindAhead next = .mark .semicolon ∨
      kindAhead next = .mark .closeBrace ∨ kindAhead next = .eof) :
    Spells .bareStatement [keyword] (.returnNothing position) fits := by
  intro used next same fit
  obtain ⟨keyword, rfl, rfl⟩ := List.map_eq_singleton_iff.1 same
  exact ⟨_, .returnNothing keywordKind (ends next fit), rfl⟩

theorem Spells.debugList
    {opening : Token}
    {values : List Expr}
    (keywordKind : keyword.kind = .keyword .debugWord)
    (openingKind : opening.kind = .mark .openBrace)
    (spells : Spells (.list .closeBrace .value) tokens values fits) :
    Spells .bareStatement (keyword :: opening :: tokens) (.debug position values) fits := by
  intro used next same fit
  obtain ⟨keyword, tail, rfl, rfl, tailSame⟩ := List.map_eq_cons_iff.1 same
  obtain ⟨opening, rest, rfl, rfl, rfl⟩ := List.map_eq_cons_iff.1 tailSame
  obtain ⟨_, derives, erased⟩ := spells rest next rfl fit
  refine ⟨_, .debugList keywordKind openingKind derives, ?_⟩
  simp only [Form.relabel, Stmt.relabel, Expr.relabelAll_eq_map]
  exact congrArg (Stmt.debug .start) erased

theorem spells_use
    {path : Token}
    (keywordKind : keyword.kind = .keyword .useWord)
    (pathKind : path.kind = .string) :
    Spells .bareStatement [keyword, path] (.use position path.lexeme) fits := by
  intro used next same _
  obtain ⟨keyword, tail, rfl, rfl, tailSame⟩ := List.map_eq_cons_iff.1 same
  obtain ⟨path, rfl, rfl⟩ := List.map_eq_singleton_iff.1 tailSame
  exact ⟨_, .use keywordKind pathKind, rfl⟩

theorem Spells.exported
    {function : Expr}
    (keywordKind : keyword.kind = .keyword .outWord)
    (functionKind : kindAhead tokens = .keyword .fnWord)
    (spells : Spells (.function true) tokens function fits) :
    Spells .bareStatement (keyword :: tokens) (.expr position function) fits := by
  intro used next same fit
  obtain ⟨keyword, rest, rfl, rfl, rfl⟩ := List.map_eq_cons_iff.1 same
  rw [kindAhead_map_erase] at functionKind
  obtain ⟨_, derives, erased⟩ := spells rest next rfl fit
  exact ⟨_, .exported keywordKind functionKind derives, congrArg (Stmt.expr .start) erased⟩

theorem Spells.expressionStatement
    {value : Expr}
    (spells : Spells (.expression .assignment) tokens value fits) :
    Spells .bareStatement tokens (.expr position value) fits := by
  intro used next same fit
  obtain ⟨_, derives, erased⟩ := spells used next same fit
  exact ⟨_, .expressionStatement derives, congrArg (Stmt.expr .start) erased⟩

end Statements

end Grammar
end TinyScript
