import TinyScript.Proofs.Grammar.Locality
import TinyScript.Proofs.Grammar.Steps

/-!
# Places for newlines

Where the grammar skips newlines there may be more of them: inside the brackets of a value, of a
member and of a list, around the commas of a list and the colon of a field, and before `else`.
`Spaced` says of a derivation and of tokens that the tokens are those of the derivation with
newlines inserted at such places.
-/

namespace TinyScript
namespace Grammar

/-! ## Tokens with newlines inserted -/

/-- The tokens `spaced` are the tokens `tokens` with any newlines inserted. -/
inductive Inserts : (tokens spaced : List Token) → Prop
  | nil : Inserts [] []
  | cons
      {tokens spaced : List Token}
      (token : Token)
      (rest : Inserts tokens spaced) :
      Inserts (token :: tokens) (token :: spaced)
  | newline
      {tokens spaced : List Token} {line : Token}
      (kind : line.kind = .newline)
      (rest : Inserts tokens spaced) :
      Inserts tokens (line :: spaced)

namespace Inserts

theorem refl
    (tokens : List Token) :
    Inserts tokens tokens := by
  induction tokens with
  | nil => exact .nil
  | cons token tokens ih => exact .cons token ih

/-- Line breaks may be inserted in both parts. -/
theorem append
    {tokens spaced tokens' spaced' : List Token}
    (left : Inserts tokens spaced)
    (right : Inserts tokens' spaced') :
    Inserts (tokens ++ tokens') (spaced ++ spaced') := by
  induction left with
  | nil => exact right
  | cons token _ ih => exact .cons token ih
  | newline kind _ ih => exact .newline kind ih

variable {tokens spaced : List Token} (inserts : Inserts tokens spaced)

include inserts

/-- The same tokens may stand before both. -/
theorem prepend
    (before : List Token) :
    Inserts (before ++ tokens) (before ++ spaced) :=
  (refl before).append inserts

/-- Line breaks among line breaks are line breaks. -/
theorem newlines
    (lines : Newlines tokens) :
    Newlines spaced := by
  induction inserts with
  | nil => exact lines
  | cons token _ ih =>
    obtain ⟨kind, rest⟩ := List.forall_mem_cons.1 lines
    exact List.forall_mem_cons.2 ⟨kind, ih rest⟩
  | newline kind _ ih => exact List.forall_mem_cons.2 ⟨kind, ih lines⟩

theorem ne_nil
    (spelled : tokens ≠ []) :
    spaced ≠ [] := by
  cases inserts with
  | nil => exact spelled
  | _ => exact List.cons_ne_nil _ _

/-- The first token stays in front, or there is a line break. -/
theorem head :
    spaced.head? = tokens.head? ∨ kindAhead spaced = .newline := by
  cases inserts with
  | newline kind _ => exact .inr kind
  | _ => exact .inl rfl

/-- What is ahead goes on with nothing that it did not go on with before. -/
theorem endsLike :
    EndsLike spaced tokens where
  head := inserts.head.imp_right fun line => by rw [line]; rfl
  declared undeclared := by
    -- A declaration has no newline between its tokens, so they stand together before as well.
    have noFlavour {word : Token} (kind : word.kind = .newline) : Rules.flavour? word = none := by
      simp [Rules.flavour?, kind]
    cases inserts with
    | nil => rfl
    | newline kind _ => exact declared?_of_kind (by simp [kind]) _
    | cons colon rest =>
      cases rest with
      | nil => rfl
      | @newline _ spaced _ kind _ => cases spaced <;> simp [declared?, noFlavour kind]
      | cons word rest =>
        cases rest with
        | nil => rfl
        | newline kind _ => simp [declared?, kind]
        | cons equals _ => exact undeclared

theorem kindAhead_ne
    {kind : Token.Kind}
    (noLine : kind ≠ .newline)
    (ends : kindAhead tokens ≠ kind) :
    kindAhead spaced ≠ kind := by
  rcases inserts.head with same | line
  · rwa [kindAhead_eq_of_head? same]
  · rw [line]
    exact noLine.symm

/-- Behind the newlines at the beginning the same kind of token is ahead. -/
theorem kindAhead_dropWhile :
    kindAhead (spaced.dropWhile (·.kind == .newline)) =
      kindAhead (tokens.dropWhile (·.kind == .newline)) := by
  induction inserts with
  | nil => rfl
  | cons token _ ih => by_cases kind : token.kind = .newline <;> simp [kind, ih]
  | newline kind _ ih => simpa [kind] using ih

end Inserts

/-! ## Places for newlines -/

/-- The tokens `spaced` are those of a derivation with newlines inserted directly behind an opening
or before the closing bracket of a value, of a list or of a member, directly before or behind a
comma of a list or the colon of a field, or directly before the `else` of a branch. -/
inductive Spaced :
    {form : Form} → {used : List Token} → {tree : form.Tree} → {next : List Token} →
    Derives form used tree next → (spaced : List Token) → Prop
  -- Expressions.
  | assign
      {spaced₁ spaced₂ : List Token} {equals : Token} {targetDerives} {valueDerives}
      (target : Spaced targetDerives spaced₁)
      (equalsKind : equals.kind = .sign .assign)
      (value : Spaced valueDerives spaced₂) :
      Spaced (.assign targetDerives equalsKind valueDerives) (spaced₁ ++ equals :: spaced₂)
  | compoundAssign
      {spaced₁ spaced₂ : List Token} {sign : Token} {op : Arithmetic} {targetDerives} {valueDerives}
      (target : Spaced targetDerives spaced₁)
      (signOperation : Rules.compound? sign = some op)
      (value : Spaced valueDerives spaced₂) :
      Spaced (.compoundAssign targetDerives signOperation valueDerives)
        (spaced₁ ++ sign :: spaced₂)
  | declare
      {spaced₁ spaced₂ : List Token} {colon word equals : Token} {flavour : Flavour} {targetDerives}
      {valueDerives}
      (target : Spaced targetDerives spaced₁)
      (colonKind : colon.kind = .mark .colon)
      (wordFlavour : Rules.flavour? word = some flavour)
      (equalsKind : equals.kind = .sign .assign)
      (value : Spaced valueDerives spaced₂) :
      Spaced (.declare targetDerives colonKind wordFlavour equalsKind valueDerives)
        (spaced₁ ++ colon :: word :: equals :: spaced₂)
  | unassigned
      {spaced : List Token} {valueDerives}
      (value : Spaced valueDerives spaced)
      (ends : _) :
      Spaced (.unassigned valueDerives ends) spaced
  | choice
      {spaced₁ spaced₂ spaced₃ : List Token} {question colon : Token} {testDerives}
      {consequentDerives} {alternateDerives}
      (test : Spaced testDerives spaced₁)
      (questionKind : question.kind = .mark .question)
      (consequent : Spaced consequentDerives spaced₂)
      (colonKind : colon.kind = .mark .colon)
      (alternate : Spaced alternateDerives spaced₃) :
      Spaced (.choice testDerives questionKind consequentDerives colonKind alternateDerives)
        (spaced₁ ++ question :: (spaced₂ ++ colon :: spaced₃))
  | unchosen
      {spaced : List Token} {valueDerives}
      (value : Spaced valueDerives spaced)
      (ends : _) :
      Spaced (.unchosen valueDerives ends) spaced
  | operand
      {chain : Chain} {used spaced next : List Token} {value : Expr}
      {valueDerives : Derives (.expression chain.operand) used value next}
      (operand : Spaced valueDerives spaced) :
      Spaced (.operand valueDerives) spaced
  | operation
      {chain : Chain} {used₁ used₂ spaced₁ spaced₂ next : List Token} {sign : Token}
      {operation : Position → Expr → Expr → Expr} {left right : Expr}
      {leftDerives : Derives (.operations chain) used₁ left (sign :: (used₂ ++ next))}
      {rightDerives : Derives (.expression chain.operand) used₂ right next}
      (before : Spaced leftDerives spaced₁)
      (signOperation : chain.operation? sign = some operation)
      (behind : Spaced rightDerives spaced₂) :
      Spaced (.operation leftDerives signOperation rightDerives) (spaced₁ ++ sign :: spaced₂)
  | chain
      {chain : Chain} {used spaced next : List Token} {value : Expr}
      {valueDerives : Derives (.operations chain) used value next}
      (operations : Spaced valueDerives spaced)
      (ends : _) :
      Spaced (.chain valueDerives ends) spaced
  | leading
      {spaced : List Token} {sign : Token} {operation : Expr → Expr} {operandDerives}
      (signOperation : Rules.leading? sign = some operation)
      (operand : Spaced operandDerives spaced) :
      Spaced (.leading signOperation operandDerives) (sign :: spaced)
  | trailing
      {spaced : List Token} {sign : Token} {op : StepOp} {operandDerives}
      (operand : Spaced operandDerives spaced)
      (signOperation : Rules.trailing? sign = some op) :
      Spaced (.trailing operandDerives signOperation) (spaced ++ [sign])
  | unstepped
      {spaced : List Token} {valueDerives}
      (value : Spaced valueDerives spaced)
      (ends : _) :
      Spaced (.unstepped valueDerives ends) spaced
  | suffixed
      {spaced : List Token} {valueDerives}
      (value : Spaced valueDerives spaced)
      (ends : _) :
      Spaced (.suffixed valueDerives ends) spaced
  | subject
      {spaced : List Token} {valueDerives}
      (value : Spaced valueDerives spaced) :
      Spaced (.subject valueDerives) spaced
  | call
      {spaced₁ spaced₂ : List Token} {opening : Token} {calleeDerives} {argumentsDerive}
      (callee : Spaced calleeDerives spaced₁)
      (openingKind : opening.kind = .mark .openParen)
      (arguments : Spaced argumentsDerive spaced₂) :
      Spaced (.call calleeDerives openingKind argumentsDerive) (spaced₁ ++ opening :: spaced₂)
  | member
      {spaced : List Token} {dot key : Token} {subjectDerives}
      (subject : Spaced subjectDerives spaced)
      (dotKind : dot.kind = .mark .dot)
      (keyKind : key.kind = .identifier ∨ ∃ word, key.kind = .keyword word) :
      Spaced (.member subjectDerives dotKind keyKind) (spaced ++ [dot, key])
  | index
      {newlines₁ newlines₂ spaced₁ lines₁ spaced₂ lines₂ : List Token} {opening closing : Token}
      {subjectDerives} {keyDerives}
      (subject : Spaced subjectDerives spaced₁)
      (openingKind : opening.kind = .mark .openBracket)
      (newlinesBefore : Newlines newlines₁)
      (insertsBefore : Inserts newlines₁ lines₁)
      (key : Spaced keyDerives spaced₂)
      (newlinesBehind : Newlines newlines₂)
      (insertsBehind : Inserts newlines₂ lines₂)
      (closingKind : closing.kind = .mark .closeBracket) :
      Spaced
        (.index subjectDerives openingKind newlinesBefore keyDerives newlinesBehind closingKind)
        (spaced₁ ++ opening :: (lines₁ ++ spaced₂ ++ lines₂ ++ [closing]))
  | name
      {token : Token}
      (kind : token.kind = .identifier) :
      Spaced (.name kind) [token]
  | number
      {token : Token}
      (kind : token.kind = .int ∨ token.kind = .float)
      (reads : _) :
      Spaced (.number kind reads) [token]
  | text
      {token : Token}
      (kind : token.kind = .string) :
      Spaced (.text kind) [token]
  | truth
      {token : Token}
      (kind : token.kind = .keyword .trueWord) :
      Spaced (.truth kind) [token]
  | falsehood
      {token : Token}
      (kind : token.kind = .keyword .falseWord) :
      Spaced (.falsehood kind) [token]
  | undefined
      {token : Token}
      (kind : token.kind = .keyword .undefWord) :
      Spaced (.undefined kind) [token]
  | typeof
      {spaced : List Token} {keyword : Token} {operandDerives}
      (keywordKind : keyword.kind = .keyword .typeofWord)
      (operand : Spaced operandDerives spaced) :
      Spaced (.typeof keywordKind operandDerives) (keyword :: spaced)
  | lambda
      {spaced : List Token} {valueDerives}
      (value : Spaced valueDerives spaced) :
      Spaced (.lambda valueDerives) spaced
  | grouped
      {newlines₁ newlines₂ lines₁ spaced lines₂ : List Token} {opening closing : Token}
      {valueDerives}
      (openingKind : opening.kind = .mark .openParen)
      (newlinesBefore : Newlines newlines₁)
      (insertsBefore : Inserts newlines₁ lines₁)
      (value : Spaced valueDerives spaced)
      (newlinesBehind : Newlines newlines₂)
      (insertsBehind : Inserts newlines₂ lines₂)
      (closingKind : closing.kind = .mark .closeParen) :
      Spaced (.grouped openingKind newlinesBefore valueDerives newlinesBehind closingKind)
        (opening :: (lines₁ ++ spaced ++ lines₂ ++ [closing]))
  | array
      {spaced : List Token} {opening : Token} {itemsDerive}
      (openingKind : opening.kind = .mark .openBracket)
      (items : Spaced itemsDerive spaced) :
      Spaced (.array openingKind itemsDerive) (opening :: spaced)
  | object
      {spaced : List Token} {opening : Token} {fieldsDerive}
      (openingKind : opening.kind = .mark .openBrace)
      (fields : Spaced fieldsDerive spaced) :
      Spaced (.object openingKind fieldsDerive) (opening :: spaced)
  -- Functions.
  | calledOnTheSpot
      {spaced : List Token} {keyword colon₁ colon₂ : Token} {valueDerives}
      (keywordKind : keyword.kind = .keyword .fnWord ∨ keyword.kind = .keyword .lambdaWord)
      (colonKind₁ : colon₁.kind = .mark .colon)
      (colonKind₂ : colon₂.kind = .mark .colon)
      (value : Spaced valueDerives spaced) :
      Spaced (.calledOnTheSpot keywordKind colonKind₁ colonKind₂ valueDerives)
        (keyword :: colon₁ :: colon₂ :: spaced)
  | betweenColons
      {spaced₁ spaced₂ : List Token} {keyword colon₁ colon₂ : Token} {parametersDerive}
      {valueDerives}
      (keywordKind : keyword.kind = .keyword .fnWord ∨ keyword.kind = .keyword .lambdaWord)
      (colonKind₁ : colon₁.kind = .mark .colon)
      (parameters : Spaced parametersDerive spaced₁)
      (parametersSpelled : _)
      (colonKind₂ : colon₂.kind = .mark .colon)
      (value : Spaced valueDerives spaced₂) :
      Spaced
        (.betweenColons keywordKind colonKind₁ parametersDerive parametersSpelled colonKind₂
          valueDerives)
        (keyword :: colon₁ :: (spaced₁ ++ colon₂ :: spaced₂))
  | named
      {spaced₁ spaced₂ : List Token} {keyword name : Token} {parametersDerive} {bodyDerives}
      (keywordKind : keyword.kind = .keyword .fnWord)
      (nameKind : name.kind = .identifier)
      (parameters : Spaced parametersDerive spaced₁)
      (body : Spaced bodyDerives spaced₂) :
      Spaced (.named keywordKind nameKind parametersDerive bodyDerives)
        (keyword :: name :: (spaced₁ ++ spaced₂))
  | unnamed
      {used₁ used₂ spaced₁ spaced₂ : List Token} {keyword : Token} {parametersDerive} {bodyDerives}
      (keywordKind : keyword.kind = .keyword .fnWord ∧ kindAhead (used₁ ++ used₂) ≠ .identifier ∨
        keyword.kind = .keyword .lambdaWord)
      (noColon : _)
      (parameters : Spaced parametersDerive spaced₁)
      (body : Spaced bodyDerives spaced₂) :
      Spaced (.unnamed keywordKind noColon parametersDerive bodyDerives)
        (keyword :: (spaced₁ ++ spaced₂))
  | functionBlock
      {spaced : List Token} {blockDerives}
      (block : Spaced blockDerives spaced) :
      Spaced (.functionBlock blockDerives) spaced
  | functionValue
      {spaced : List Token} {colon : Token} {valueDerives}
      (colonKind : colon.kind = .mark .colon)
      (value : Spaced valueDerives spaced) :
      Spaced (.functionValue colonKind valueDerives) (colon :: spaced)
  | listedParameters
      {spaced : List Token} {opening : Token} {parametersDerive}
      (openingKind : opening.kind = .mark .openParen)
      (parameters : Spaced parametersDerive spaced) :
      Spaced (.listedParameters openingKind parametersDerive) (opening :: spaced)
  | unlistedParameters
      {spaced : List Token} {parametersDerive}
      (noList : _)
      (parameters : Spaced parametersDerive spaced) :
      Spaced (.unlistedParameters noList parametersDerive) spaced
  | noParameters
      (ends : _) :
      Spaced (.noParameters ends) []
  | requiredParameters
      {spaced : List Token} {name : Token} {othersDerive}
      (nameKind : name.kind = .identifier)
      (noDefault : _)
      (others : Spaced othersDerive spaced) :
      Spaced (.requiredParameters nameKind noDefault othersDerive) (name :: spaced)
  /-- Within the parentheses of such a default no newline is skipped. -/
  | optionalParameters
      {spaced₁ spaced₂ : List Token} {name equals opening closing : Token} {defaultDerives}
      {othersDerive}
      (nameKind : name.kind = .identifier)
      (equalsKind : equals.kind = .sign .assign)
      (openingKind : opening.kind = .mark .openParen)
      (default : Spaced defaultDerives spaced₁)
      (closingKind : closing.kind = .mark .closeParen)
      (others : Spaced othersDerive spaced₂) :
      Spaced
        (.optionalParameters nameKind equalsKind openingKind defaultDerives closingKind
          othersDerive)
        (name :: equals :: opening :: (spaced₁ ++ closing :: spaced₂))
  -- Lists.
  | value
      {spaced : List Token} {valueDerives}
      (value : Spaced valueDerives spaced) :
      Spaced (.value valueDerives) spaced
  | field
      {newlines₁ newlines₂ lines₁ lines₂ spaced : List Token} {key colon : Token} {valueDerives}
      (keyKind : key.kind = .identifier ∨ key.kind = .string)
      (newlinesBefore : Newlines newlines₁)
      (insertsBefore : Inserts newlines₁ lines₁)
      (colonKind : colon.kind = .mark .colon)
      (newlinesBehind : Newlines newlines₂)
      (insertsBehind : Inserts newlines₂ lines₂)
      (value : Spaced valueDerives spaced) :
      Spaced (.field keyKind newlinesBefore colonKind newlinesBehind valueDerives)
        (key :: (lines₁ ++ colon :: (lines₂ ++ spaced)))
  | shorthand
      {newlines lines : List Token} {key : Token}
      (keyKind : key.kind = .identifier ∨ key.kind = .string)
      (newlinesBehind : Newlines newlines)
      (insertsBehind : Inserts newlines lines)
      (ends : _) :
      Spaced (.shorthand keyKind newlinesBehind ends) (key :: lines)
  | requiredParameter
      {name : Token}
      (nameKind : name.kind = .identifier)
      (noDefault : _) :
      Spaced (.requiredParameter nameKind noDefault) [name]
  | optionalParameter
      {spaced : List Token} {name equals : Token} {defaultDerives}
      (nameKind : name.kind = .identifier)
      (equalsKind : equals.kind = .sign .assign)
      (default : Spaced defaultDerives spaced) :
      Spaced (.optionalParameter nameKind equalsKind defaultDerives) (name :: equals :: spaced)
  | list
      {mark : Mark} {item : Item} {newlines lines used spaced next : List Token}
      {items : List item.Tree} {itemsDerive : Derives (.items mark item) used items next}
      (newlinesBefore : Newlines newlines)
      (insertsBefore : Inserts newlines lines)
      (list : Spaced itemsDerive spaced) :
      Spaced (.list newlinesBefore itemsDerive) (lines ++ spaced)
  | noItems
      {mark : Mark} {item : Item} {next : List Token} {closing : Token}
      (closingKind : closing.kind = .mark mark) :
      Spaced (.noItems closingKind : Derives (.items mark item) [closing] [] next) [closing]
  | lastItem
      {mark : Mark} {item : Item} {used newlines spaced lines next : List Token} {closing : Token}
      {last : item.Tree}
      {lastDerives : Derives (.item item) used last (newlines ++ closing :: next)}
      (entry : Spaced lastDerives spaced)
      (newlinesBehind : Newlines newlines)
      (insertsBehind : Inserts newlines lines)
      (closingKind : closing.kind = .mark mark) :
      Spaced (.lastItem lastDerives newlinesBehind closingKind) (spaced ++ lines ++ [closing])
  | moreItems
      {mark : Mark} {item : Item}
      {used₁ newlines₁ newlines₂ used₂ spaced₁ lines₁ lines₂ spaced₂ next : List Token}
      {comma : Token} {first : item.Tree} {others : List item.Tree}
      {firstDerives : Derives (.item item) used₁ first
        (newlines₁ ++ comma :: (newlines₂ ++ used₂ ++ next))}
      {othersDerive : Derives (.items mark item) used₂ others next}
      (entry : Spaced firstDerives spaced₁)
      (newlinesBefore : Newlines newlines₁)
      (insertsBefore : Inserts newlines₁ lines₁)
      (commaKind : comma.kind = .mark .comma)
      (newlinesBehind : Newlines newlines₂)
      (insertsBehind : Inserts newlines₂ lines₂)
      (entries : Spaced othersDerive spaced₂) :
      Spaced (.moreItems firstDerives newlinesBefore commaKind newlinesBehind othersDerive)
        (spaced₁ ++ lines₁ ++ comma :: (lines₂ ++ spaced₂))
  -- Blocks and statements.
  | block
      {separators spaced : List Token} {opening closing : Token} {statementsDerive}
      (openingKind : opening.kind = .mark .openBrace)
      (separated : Separators separators)
      (statements : Spaced statementsDerive spaced)
      (closingKind : closing.kind = .mark .closeBrace) :
      Spaced (.block openingKind separated statementsDerive closingKind)
        (opening :: (separators ++ spaced ++ [closing]))
  | bodyBlock
      {spaced : List Token} {blockDerives}
      (block : Spaced blockDerives spaced) :
      Spaced (.bodyBlock blockDerives) spaced
  | bodyStatement
      {spaced : List Token} {colon : Token} {statementDerives}
      (colonKind : colon.kind = .mark .colon)
      (statement : Spaced statementDerives spaced) :
      Spaced (.bodyStatement colonKind statementDerives) (colon :: spaced)
  | noStatements
      (ends : _) :
      Spaced (.noStatements ends) []
  | moreStatements
      {separators spaced₁ spaced₂ : List Token} {firstDerives} {othersDerive}
      (first : Spaced firstDerives spaced₁)
      (separated : Separators separators)
      (others : Spaced othersDerive spaced₂) :
      Spaced (.moreStatements firstDerives separated othersDerive)
        (spaced₁ ++ separators ++ spaced₂)
  | ended
      {spaced : List Token} {semicolon : Token} {statementDerives}
      (statement : Spaced statementDerives spaced)
      (semicolonKind : semicolon.kind = .mark .semicolon) :
      Spaced (.ended statementDerives semicolonKind) (spaced ++ [semicolon])
  | unended
      {spaced : List Token} {statementDerives}
      (statement : Spaced statementDerives spaced)
      (noSemicolon : _) :
      Spaced (.unended statementDerives noSemicolon) spaced
  | branchStatement
      {spaced : List Token} {branchDerives}
      (branch : Spaced branchDerives spaced) :
      Spaced (.branchStatement branchDerives) spaced
  | whileLoop
      {spaced₁ spaced₂ : List Token} {keyword : Token} {testDerives} {bodyDerives}
      (keywordKind : keyword.kind = .keyword .whileWord)
      (test : Spaced testDerives spaced₁)
      (body : Spaced bodyDerives spaced₂) :
      Spaced (.whileLoop keywordKind testDerives bodyDerives) (keyword :: (spaced₁ ++ spaced₂))
  | forLoop
      {spaced₁ spaced₂ spaced₃ spaced₄ : List Token} {keyword semicolon₁ semicolon₂ : Token}
      {startDerives} {testDerives} {updateDerives} {bodyDerives}
      (keywordKind : keyword.kind = .keyword .forWord)
      (start : Spaced startDerives spaced₁)
      (semicolonKind₁ : semicolon₁.kind = .mark .semicolon)
      (test : Spaced testDerives spaced₂)
      (semicolonKind₂ : semicolon₂.kind = .mark .semicolon)
      (update : Spaced updateDerives spaced₃)
      (body : Spaced bodyDerives spaced₄) :
      Spaced
        (.forLoop keywordKind startDerives semicolonKind₁ testDerives semicolonKind₂ updateDerives
          bodyDerives)
        (keyword :: (spaced₁ ++ semicolon₁ :: (spaced₂ ++ semicolon₂ :: (spaced₃ ++ spaced₄))))
  | returnValue
      {spaced : List Token} {keyword : Token} {valueDerives}
      (keywordKind : keyword.kind = .keyword .returnWord)
      (value : Spaced valueDerives spaced) :
      Spaced (.returnValue keywordKind valueDerives) (keyword :: spaced)
  | returnNothing
      {keyword : Token}
      (keywordKind : keyword.kind = .keyword .returnWord)
      (ends : _) :
      Spaced (.returnNothing keywordKind ends) [keyword]
  | debugList
      {spaced : List Token} {keyword opening : Token} {valuesDerive}
      (keywordKind : keyword.kind = .keyword .debugWord)
      (openingKind : opening.kind = .mark .openBrace)
      (values : Spaced valuesDerive spaced) :
      Spaced (.debugList keywordKind openingKind valuesDerive) (keyword :: opening :: spaced)
  | debugValue
      {spaced : List Token} {keyword : Token} {valueDerives}
      (keywordKind : keyword.kind = .keyword .debugWord)
      (noList : _)
      (value : Spaced valueDerives spaced) :
      Spaced (.debugValue keywordKind noList valueDerives) (keyword :: spaced)
  | use
      {keyword path : Token}
      (keywordKind : keyword.kind = .keyword .useWord)
      (pathKind : path.kind = .string) :
      Spaced (.use keywordKind pathKind) [keyword, path]
  | exported
      {spaced : List Token} {keyword : Token} {functionDerives}
      (keywordKind : keyword.kind = .keyword .outWord)
      (functionKind : _)
      (function : Spaced functionDerives spaced) :
      Spaced (.exported keywordKind functionKind functionDerives) (keyword :: spaced)
  | expressionStatement
      {spaced : List Token} {valueDerives}
      (value : Spaced valueDerives spaced) :
      Spaced (.expressionStatement valueDerives) spaced
  | ifElse
      {newlines spaced₁ spaced₂ lines spaced₃ : List Token} {keyword otherwise : Token}
      {testDerives} {consequentDerives} {alternateDerives}
      (keywordKind : keyword.kind = .keyword .ifWord)
      (test : Spaced testDerives spaced₁)
      (consequent : Spaced consequentDerives spaced₂)
      (newlinesBefore : Newlines newlines)
      (insertsBefore : Inserts newlines lines)
      (otherwiseKind : otherwise.kind = .keyword .elseWord)
      (alternate : Spaced alternateDerives spaced₃) :
      Spaced
        (.ifElse keywordKind testDerives consequentDerives newlinesBefore otherwiseKind
          alternateDerives)
        (keyword :: (spaced₁ ++ spaced₂ ++ lines ++ otherwise :: spaced₃))
  | ifOnly
      {spaced₁ spaced₂ : List Token} {keyword : Token} {testDerives} {consequentDerives}
      (keywordKind : keyword.kind = .keyword .ifWord)
      (test : Spaced testDerives spaced₁)
      (consequent : Spaced consequentDerives spaced₂)
      (noElse : _) :
      Spaced (.ifOnly keywordKind testDerives consequentDerives noElse)
        (keyword :: (spaced₁ ++ spaced₂))
  | elseIf
      {spaced : List Token} {branchDerives}
      (branch : Spaced branchDerives spaced) :
      Spaced (.elseIf branchDerives) spaced
  | elseBlock
      {spaced : List Token} {blockDerives}
      (block : Spaced blockDerives spaced) :
      Spaced (.elseBlock blockDerives) spaced
  | elseColon
      {spaced : List Token} {colon : Token} {statementDerives}
      (colonKind : colon.kind = .mark .colon)
      (statement : Spaced statementDerives spaced) :
      Spaced (.elseColon colonKind statementDerives) (colon :: spaced)
  | elseStatement
      {spaced : List Token} {statementDerives}
      (noBranch : _)
      (noBlock : _)
      (statement : Spaced statementDerives spaced) :
      Spaced (.elseStatement noBranch noBlock statementDerives) spaced
  | program
      {separators spaced : List Token} {statementsDerive}
      (separated : Separators separators)
      (statements : Spaced statementsDerive spaced) :
      Spaced (.program separated statementsDerive) (separators ++ spaced)

namespace Spaced

variable {form : Form} {used spaced next : List Token} {tree : form.Tree}

/-- No newline need be inserted. -/
theorem refl
    (derives : Derives form used tree next) :
    Spaced derives used := by
  induction derives with
  | assign _ equalsKind _ target value => exact .assign target equalsKind value
  | compoundAssign _ signOperation _ target value =>
    exact .compoundAssign target signOperation value
  | declare _ colonKind wordFlavour equalsKind _ target value =>
    exact .declare target colonKind wordFlavour equalsKind value
  | unassigned _ ends value => exact .unassigned value ends
  | choice _ questionKind _ colonKind _ test consequent alternate =>
    exact .choice test questionKind consequent colonKind alternate
  | unchosen _ ends value => exact .unchosen value ends
  | operand _ value => exact .operand value
  | operation _ signOperation _ left right => exact .operation left signOperation right
  | chain _ ends value => exact .chain value ends
  | leading signOperation _ operand => exact .leading signOperation operand
  | trailing _ signOperation operand => exact .trailing operand signOperation
  | unstepped _ ends value => exact .unstepped value ends
  | suffixed _ ends value => exact .suffixed value ends
  | subject _ value => exact .subject value
  | call _ openingKind _ callee arguments => exact .call callee openingKind arguments
  | member _ dotKind keyKind subject => exact .member subject dotKind keyKind
  | index _ openingKind newlinesBefore _ newlinesBehind closingKind subject key =>
    exact .index subject openingKind newlinesBefore (Inserts.refl _) key newlinesBehind
      (Inserts.refl _) closingKind
  | name kind => exact .name kind
  | number kind reads => exact .number kind reads
  | text kind => exact .text kind
  | truth kind => exact .truth kind
  | falsehood kind => exact .falsehood kind
  | undefined kind => exact .undefined kind
  | typeof keywordKind _ operand => exact .typeof keywordKind operand
  | lambda _ value => exact .lambda value
  | grouped openingKind newlinesBefore _ newlinesBehind closingKind value =>
    exact .grouped openingKind newlinesBefore (Inserts.refl _) value newlinesBehind
      (Inserts.refl _) closingKind
  | array openingKind _ items => exact .array openingKind items
  | object openingKind _ fields => exact .object openingKind fields
  | calledOnTheSpot keywordKind colonKind₁ colonKind₂ _ value =>
    exact .calledOnTheSpot keywordKind colonKind₁ colonKind₂ value
  | betweenColons keywordKind colonKind₁ _ parametersSpelled colonKind₂ _ parameters value =>
    exact .betweenColons keywordKind colonKind₁ parameters parametersSpelled colonKind₂ value
  | named keywordKind nameKind _ _ parameters body =>
    exact .named keywordKind nameKind parameters body
  | unnamed keywordKind noColon _ _ parameters body =>
    exact .unnamed keywordKind noColon parameters body
  | functionBlock _ block => exact .functionBlock block
  | functionValue colonKind _ value => exact .functionValue colonKind value
  | listedParameters openingKind _ parameters => exact .listedParameters openingKind parameters
  | unlistedParameters noList _ parameters => exact .unlistedParameters noList parameters
  | noParameters ends => exact .noParameters ends
  | requiredParameters nameKind noDefault _ others =>
    exact .requiredParameters nameKind noDefault others
  | optionalParameters nameKind equalsKind openingKind _ closingKind _ default others =>
    exact .optionalParameters nameKind equalsKind openingKind default closingKind others
  | value _ value => exact .value value
  | field keyKind newlinesBefore colonKind newlinesBehind _ value =>
    exact .field keyKind newlinesBefore (Inserts.refl _) colonKind newlinesBehind (Inserts.refl _)
      value
  | shorthand keyKind newlinesBehind ends =>
    exact .shorthand keyKind newlinesBehind (Inserts.refl _) ends
  | requiredParameter nameKind noDefault => exact .requiredParameter nameKind noDefault
  | optionalParameter nameKind equalsKind _ default =>
    exact .optionalParameter nameKind equalsKind default
  | list newlinesBefore _ items => exact .list newlinesBefore (Inserts.refl _) items
  | noItems closingKind => exact .noItems closingKind
  | lastItem _ newlinesBehind closingKind last =>
    exact .lastItem last newlinesBehind (Inserts.refl _) closingKind
  | moreItems _ newlinesBefore commaKind newlinesBehind _ first others =>
    exact .moreItems first newlinesBefore (Inserts.refl _) commaKind newlinesBehind
      (Inserts.refl _) others
  | block openingKind separated _ closingKind statements =>
    exact .block openingKind separated statements closingKind
  | bodyBlock _ block => exact .bodyBlock block
  | bodyStatement colonKind _ statement => exact .bodyStatement colonKind statement
  | noStatements ends => exact .noStatements ends
  | moreStatements _ separated _ first others => exact .moreStatements first separated others
  | ended _ semicolonKind statement => exact .ended statement semicolonKind
  | unended _ noSemicolon statement => exact .unended statement noSemicolon
  | branchStatement _ branch => exact .branchStatement branch
  | whileLoop keywordKind _ _ test body => exact .whileLoop keywordKind test body
  | forLoop keywordKind _ semicolonKind₁ _ semicolonKind₂ _ _ start test update body =>
    exact .forLoop keywordKind start semicolonKind₁ test semicolonKind₂ update body
  | returnValue keywordKind _ value => exact .returnValue keywordKind value
  | returnNothing keywordKind ends => exact .returnNothing keywordKind ends
  | debugList keywordKind openingKind _ values => exact .debugList keywordKind openingKind values
  | debugValue keywordKind noList _ value => exact .debugValue keywordKind noList value
  | use keywordKind pathKind => exact .use keywordKind pathKind
  | exported keywordKind functionKind _ function =>
    exact .exported keywordKind functionKind function
  | expressionStatement _ value => exact .expressionStatement value
  | ifElse keywordKind _ _ newlinesBefore otherwiseKind _ test consequent alternate =>
    exact .ifElse keywordKind test consequent newlinesBefore (Inserts.refl _) otherwiseKind
      alternate
  | ifOnly keywordKind _ _ noElse test consequent =>
    exact .ifOnly keywordKind test consequent noElse
  | elseIf _ branch => exact .elseIf branch
  | elseBlock _ block => exact .elseBlock block
  | elseColon colonKind _ statement => exact .elseColon colonKind statement
  | elseStatement noBranch noBlock _ statement =>
    exact .elseStatement noBranch noBlock statement
  | program separated _ statements => exact .program separated statements

/-- Nothing but newlines is inserted. -/
theorem inserts
    {derives : Derives form used tree next}
    (isSpaced : Spaced derives spaced) :
    Inserts used spaced := by
  induction isSpaced with
  | assign _ _ _ left right
  | compoundAssign _ _ _ left right
  | operation _ _ _ left right
  | call _ _ _ left right => exact left.append (right.prepend [_])
  | declare _ _ _ _ _ target value => exact target.append (value.prepend [_, _, _])
  | choice _ _ _ _ _ test consequent alternate =>
    exact test.append (.cons _ (consequent.append (.cons _ alternate)))
  | trailing _ _ part | ended _ _ part => exact part.append (Inserts.refl [_])
  | member _ _ _ subject => exact subject.append (Inserts.refl [_, _])
  | index _ _ _ before _ _ behind _ subject key =>
    exact subject.append (.cons _ (((before.append key).append behind).append (Inserts.refl [_])))
  | grouped _ _ before _ _ behind _ value =>
    exact .cons _ (((before.append value).append behind).append (Inserts.refl [_]))
  | calledOnTheSpot _ _ _ _ value => exact value.prepend [_, _, _]
  | betweenColons _ _ _ _ _ _ parameters value =>
    exact (parameters.append (value.prepend [_])).prepend [_, _]
  | named _ _ _ _ parameters body => exact (parameters.append body).prepend [_, _]
  | unnamed _ _ _ _ left right
  | whileLoop _ _ _ left right
  | ifOnly _ _ _ _ left right => exact .cons _ (left.append right)
  | optionalParameters _ _ _ _ _ _ default others =>
    exact (default.append (others.prepend [_])).prepend [_, _, _]
  | field _ _ before _ _ behind _ value =>
    exact .cons _ (before.append (.cons _ (behind.append value)))
  | shorthand _ _ behind _ => exact .cons _ behind
  | optionalParameter _ _ _ part | debugList _ _ _ part => exact part.prepend [_, _]
  | list _ before _ items => exact before.append items
  | lastItem _ _ behind _ last => exact (last.append behind).append (Inserts.refl [_])
  | moreItems _ _ before _ _ behind _ first others =>
    exact (first.append before).append (.cons _ (behind.append others))
  | block _ _ _ _ statements => exact .cons _ ((statements.prepend _).append (Inserts.refl [_]))
  | moreStatements _ _ _ first others => exact (first.append (Inserts.refl _)).append others
  | forLoop _ _ _ _ _ _ _ start test update body =>
    exact .cons _ (start.append (.cons _ (test.append (.cons _ (update.append body)))))
  | ifElse _ _ _ _ before _ _ test consequent alternate =>
    exact .cons _ (((test.append consequent).append before).append (.cons _ alternate))
  | program _ _ statements => exact statements.prepend _
  | leading _ _ part | typeof _ _ part | array _ _ part | object _ _ part
  | functionValue _ _ part | listedParameters _ _ part | requiredParameters _ _ _ part
  | bodyStatement _ _ part | returnValue _ _ part | debugValue _ _ _ part | exported _ _ _ part
  | elseColon _ _ part => exact .cons _ part
  | name | number | text | truth | falsehood | undefined | noParameters | requiredParameter
  | noItems | noStatements | returnNothing | use => exact Inserts.refl _
  | unassigned _ _ part | unchosen _ _ part | operand _ part | chain _ _ part
  | unstepped _ _ part | suffixed _ _ part | subject _ part | lambda _ part
  | functionBlock _ part | unlistedParameters _ _ part | value _ part | bodyBlock _ part
  | unended _ _ part | branchStatement _ part | expressionStatement _ part | elseIf _ part
  | elseBlock _ part | elseStatement _ _ _ part => exact part

end Spaced

end Grammar
end TinyScript
