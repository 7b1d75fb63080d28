import TinyScript.Proofs.Grammar.Steps

/-!
# Parsers follow the productions

For each production of the grammar, the parser of the form goes on as the
production says once the parsers of the forms inside it do.
-/

namespace TinyScript
namespace Grammar

open Parse

variable {α : Type}
variable {rules : Rules} {stop : Token}

/-- The parser for the expressions of a level. -/
def Level.parser (rules : Rules) : Level → Parse Expr
  | .assignment => rules.assignment
  | .ternary => rules.ternaryForm
  | .chain .logical => rules.logical
  | .chain .equality => rules.equality
  | .chain .comparison => rules.comparison
  | .chain .sum => rules.sum
  | .chain .product => rules.product
  | .unary => rules.unaryForm
  | .suffixed => rules.callOrMember
  | .primary => rules.primary

/-- The parser for the items of a list. -/
def Item.parser (rules : Rules) : (item : Item) → Parse item.Tree
  | .value => rules.expression
  | .field => rules.field
  | .parameter => rules.parameter

/-! ## Expressions -/

/-- A target, an equals sign and a value are an assignment. -/
theorem assignment_of_assign
    {ahead left next : List Token}
    {equals : Token}
    {target value : Expr}
    (targetRead : rules.ternaryForm stop ahead = .ok (target, equals :: left))
    (equalsKind : equals.kind = .sign .assign)
    (valueRead : rules.expression stop left = .ok (value, next)) :
    rules.assignment stop ahead = .ok (.assign target.position target value, next) := by
  simp only [Rules.assignment, bind_of_ok targetRead, bind_of_ok (accept_found equalsKind ..),
    if_true, bind_of_ok valueRead, pure_apply]

/-- A target, a compound sign and a value are an assignment of what the operation gives. -/
theorem assignment_of_compound
    (stopEnds : stop.kind = .eof)
    {ahead left next : List Token}
    {sign : Token}
    {op : Arithmetic}
    {target value : Expr}
    (targetRead : rules.ternaryForm stop ahead = .ok (target, sign :: left))
    (signOperation : Rules.compound? sign = some op)
    (valueRead : rules.expression stop left = .ok (value, next)) :
    rules.assignment stop ahead =
      .ok (.assign target.position target
        (.binary target.position (.arithmetic op) target value), next) := by
  have noAssign : kindAhead (sign :: left) ≠ .sign .assign := by
    rw [kindAhead_cons]
    intro isAssign
    simp [Rules.compound?, isAssign] at signOperation
  simp only [Rules.assignment, bind_of_ok targetRead,
    bind_of_ok (accept_missing stopEnds noAssign), Bool.false_eq_true, if_false, peek_bind,
    List.headD_cons, signOperation, advance_bind, bind_of_ok valueRead, pure_apply]

/-- A name, a colon, a flavour, an equals sign and a value are a declaration. -/
theorem assignment_of_declare
    (stopEnds : stop.kind = .eof)
    {ahead left next : List Token}
    {colon word equals : Token}
    {flavour : Flavour}
    {position : Position}
    {name : String}
    {value : Expr}
    (targetRead : rules.ternaryForm stop ahead =
      .ok (.name position name, colon :: word :: equals :: left))
    (colonKind : colon.kind = .mark .colon)
    (wordFlavour : Rules.flavour? word = some flavour)
    (equalsKind : equals.kind = .sign .assign)
    (valueRead : rules.expression stop left = .ok (value, next)) :
    rules.assignment stop ahead = .ok (.declare position flavour name value, next) := by
  have noAssign : kindAhead (colon :: word :: equals :: left) ≠ .sign .assign := by
    simp [colonKind]
  have noCompound : Rules.compound? colon = none := by
    simp [Rules.compound?, colonKind]
  have declares : declared? (colon :: word :: equals :: left) = some flavour := by
    simp [declared?, colonKind, equalsKind, wordFlavour]
  simp only [Rules.assignment, bind_of_ok targetRead,
    bind_of_ok (accept_missing stopEnds noAssign), Bool.false_eq_true, if_false, peek_bind,
    List.headD_cons, noCompound, bind_of_ok (Rules.declarationAhead_apply ..), declares,
    advance_bind, bind_of_ok valueRead, pure_apply, Expr.position]

/-- What nothing is assigned to is the expression itself. -/
theorem assignment_of_unassigned
    (stopEnds : stop.kind = .eof)
    {ahead next : List Token}
    {value : Expr}
    (valueRead : rules.ternaryForm stop ahead = .ok (value, next))
    (ends : EndsAssignment next) :
    rules.assignment stop ahead = .ok (value, next) := by
  have stopCompound : Rules.compound? stop = none := by simp [Rules.compound?, stopEnds]
  simp only [Rules.assignment, bind_of_ok valueRead,
    bind_of_ok (accept_missing stopEnds ends.noAssign), Bool.false_eq_true, if_false, peek_bind,
    operation?_headD stopCompound, ends.noCompound,
    bind_of_ok (Rules.declarationAhead_apply ..), ends.noDeclaration, pure_apply]

/-- A test, a question mark, a value, a colon and another value are a choice. -/
theorem ternaryForm_of_choice
    {ahead left₁ left₂ next : List Token}
    {question colon : Token}
    {test consequent alternate : Expr}
    (testRead : rules.logical stop ahead = .ok (test, question :: left₁))
    (questionKind : question.kind = .mark .question)
    (consequentRead : rules.logical stop left₁ = .ok (consequent, colon :: left₂))
    (colonKind : colon.kind = .mark .colon)
    (alternateRead : rules.ternary stop left₂ = .ok (alternate, next)) :
    rules.ternaryForm stop ahead =
      .ok (.ternary test.position test consequent alternate, next) := by
  simp only [Rules.ternaryForm, bind_of_ok testRead, bind_of_ok (accept_found questionKind ..),
    if_true, bind_of_ok consequentRead, bind_of_ok (expect_found colonKind ..),
    bind_of_ok alternateRead, pure_apply]

/-- What no question mark follows is the expression itself. -/
theorem ternaryForm_of_unchosen
    (stopEnds : stop.kind = .eof)
    {ahead next : List Token}
    {value : Expr}
    (valueRead : rules.logical stop ahead = .ok (value, next))
    (ends : kindAhead next ≠ .mark .question) :
    rules.ternaryForm stop ahead = .ok (value, next) := by
  simp only [Rules.ternaryForm, bind_of_ok valueRead, bind_of_ok (accept_missing stopEnds ends),
    Bool.false_eq_true, if_false, pure_apply]

/-- A token that begins an extension extends the result. -/
theorem extendUpTo_of_extension
    {extension? : Token → Option (α → Parse α)}
    {extension : α → Parse α}
    {result extended : α}
    {sign placeholder : Token}
    {bound ahead next : List Token}
    (extends? : extension? sign = some extension)
    (extensionRead : extension result stop ahead = .ok (extended, next)) :
    extendUpTo extension? (placeholder :: bound) result stop (sign :: ahead) =
      extendUpTo extension? bound extended stop next := by
  simp only [extendUpTo, peek_bind, List.headD_cons, extends?, advance_bind,
    bind_of_ok extensionRead]

/-- A parser that goes on to extend a result goes on behind the extension. -/
theorem exists_bound_of_extension
    {extension? : Token → Option (α → Parse α)}
    {extension : α → Parse α}
    {result extended : α}
    {outcome : Except Diagnostic (α × List Token)}
    {sign : Token}
    {bound ahead next : List Token}
    (roomy : (sign :: ahead).length ≤ bound.length)
    (read : outcome = extendUpTo extension? bound result stop (sign :: ahead))
    (extends? : extension? sign = some extension)
    (extensionRead : extension result stop ahead = .ok (extended, next))
    (shorter : next.length ≤ ahead.length) :
    ∃ bound, next.length ≤ bound.length ∧
      outcome = extendUpTo extension? bound extended stop next := by
  cases bound with
  | nil => exact absurd roomy (by simp)
  | cons _ bound =>
    refine ⟨bound, ?_, read.trans (extendUpTo_of_extension extends? extensionRead)⟩
    rw [List.length_cons, List.length_cons] at roomy
    omega

/-- A token that does not say how to go on ends the extension, however many rounds are left. -/
theorem extendUpTo_of_none
    {extension? : Token → Option (α → Parse α)}
    {next : List Token}
    (ends : extension? (next.headD stop) = none)
    (bound : List Token)
    (result : α) :
    extendUpTo extension? bound result stop next = .ok (result, next) := by
  cases bound with
  | nil => rfl
  | cons _ bound => simp only [extendUpTo, peek_bind, ends, pure_apply]

/-- A token that begins no extension leaves the result as it is. -/
theorem extendUpTo_of_end
    {extension? : Token → Option (α → Parse α)}
    (noEnd : extension? stop = none)
    {next : List Token}
    (ends : next.head?.bind extension? = none)
    (bound : List Token)
    (result : α) :
    extendUpTo extension? bound result stop next = .ok (result, next) := by
  apply extendUpTo_of_none
  rw [operation?_headD noEnd, ends]

theorem parser_chain
    (rules : Rules)
    (chain : Chain) :
    (Level.chain chain).parser rules =
      (do
        extend (chain.extension? (chain.operand.parser rules)) (← chain.operand.parser rules)) := by
  cases chain <;> rfl

/-- An operator and its operand are an operation. -/
theorem unaryForm_of_leading
    {ahead next : List Token}
    {sign : Token}
    {operation : Expr → Expr}
    {operand : Expr}
    (signOperation : Rules.leading? sign = some operation)
    (operandRead : rules.unary stop ahead = .ok (operand, next)) :
    rules.unaryForm stop (sign :: ahead) = .ok (operation operand, next) := by
  simp only [Rules.unaryForm, peek_bind, List.headD_cons, signOperation, advance_bind,
    bind_of_ok operandRead, pure_apply]

/-- An operand and a step behind it are an operation. -/
theorem unaryForm_of_trailing
    {ahead next : List Token}
    {sign : Token}
    {op : StepOp}
    {operand : Expr}
    (noLeading : Rules.leading? (ahead.headD stop) = none)
    (operandRead : rules.callOrMember stop ahead = .ok (operand, sign :: next))
    (signOperation : Rules.trailing? sign = some op) :
    rules.unaryForm stop ahead =
      .ok (.step operand.position .behind op operand, next) := by
  simp only [Rules.unaryForm, peek_bind, noLeading, bind_of_ok operandRead, List.headD_cons,
    signOperation, advance_bind, pure_apply]

/-- What no step follows is the expression itself. -/
theorem unaryForm_of_unstepped
    (stopEnds : stop.kind = .eof)
    {ahead next : List Token}
    {value : Expr}
    (noLeading : Rules.leading? (ahead.headD stop) = none)
    (valueRead : rules.callOrMember stop ahead = .ok (value, next))
    (ends : next.head?.bind Rules.trailing? = none) :
    rules.unaryForm stop ahead = .ok (value, next) := by
  have stopTrailing : Rules.trailing? stop = none := by simp [Rules.trailing?, stopEnds]
  simp only [Rules.unaryForm, peek_bind, noLeading, bind_of_ok valueRead,
    operation?_headD stopTrailing, ends, pure_apply]

/-! ## Calls, accesses and values that are no operation -/

/-- A list in parentheses behind an expression is a call of it. -/
theorem suffix?_of_call
    {ahead next : List Token}
    {opening : Token}
    {arguments : List Expr}
    (openingKind : opening.kind = .mark .openParen)
    (argumentsRead : ∀ message,
      listUpTo .closeParen message rules.expression stop ahead = .ok (arguments, next))
    (callee : Expr) :
    ∃ extension, rules.suffix? opening = some extension ∧
      extension callee stop ahead = .ok (.call callee.position callee arguments, next) := by
  refine ⟨_, by rw [Rules.suffix?, openingKind], ?_⟩
  simp only [bind_of_ok (argumentsRead _), pure_apply]

/-- A dot and a word behind an expression are a member of it. -/
theorem suffix?_of_member
    (stopEnds : stop.kind = .eof)
    {dot key : Token}
    (dotKind : dot.kind = .mark .dot)
    (keyKind : key.kind = .identifier ∨ ∃ word, key.kind = .keyword word)
    (next : List Token)
    (subject : Expr) :
    ∃ extension, rules.suffix? dot = some extension ∧
      extension subject stop (key :: next) =
        .ok (.member subject.position subject key.lexeme, next) := by
  have nameRead : Rules.memberName stop (key :: next) = .ok (key.lexeme, next) :=
    (memberName_eq_ok stopEnds ..).mpr ⟨key, rfl, keyKind, rfl⟩
  refine ⟨_, by rw [Rules.suffix?, dotKind], ?_⟩
  simp only [bind_of_ok nameRead, pure_apply]

/-- An expression in brackets behind another one is an element of it. -/
theorem suffix?_of_index
    {newlines₁ ahead newlines₂ next : List Token}
    {opening closing : Token}
    {key : Expr}
    (openingKind : opening.kind = .mark .openBracket)
    (newlinesBefore : Newlines newlines₁)
    (keyBegins : kindAhead ahead ≠ .newline)
    (keyRead : rules.expression stop ahead = .ok (key, newlines₂ ++ closing :: next))
    (newlinesBehind : Newlines newlines₂)
    (closingKind : closing.kind = .mark .closeBracket)
    (subject : Expr) :
    ∃ extension, rules.suffix? opening = some extension ∧
      extension subject stop (newlines₁ ++ ahead) =
        .ok (.index subject.position subject key, next) := by
  have closingBegins : kindAhead (closing :: next) ≠ .newline := by simp [closingKind]
  refine ⟨_, by rw [Rules.suffix?, openingKind], ?_⟩
  simp only [bind_of_ok (skipNewlines_found newlinesBefore keyBegins stop), bind_of_ok keyRead,
    bind_of_ok (skipNewlines_found newlinesBehind closingBegins stop),
    bind_of_ok (expect_found closingKind ..), pure_apply]

/-- A word that is no keyword is a name. -/
theorem primary_of_name
    {token : Token}
    (kind : token.kind = .identifier)
    (next : List Token) :
    rules.primary stop (token :: next) = .ok (.name token.position token.lexeme, next) := by
  rw [Rules.primary, peek_bind, List.headD_cons, kind]
  simp only [advance_bind, pure_apply]

/-- A numeral is the number that it is read as. -/
theorem primary_of_number
    {token : Token}
    {value : Float}
    (kind : token.kind = .int ∨ token.kind = .float)
    (reads : Number.read? token.lexeme.toList = some value)
    (next : List Token) :
    rules.primary stop (token :: next) = .ok (.number token.position value, next) := by
  rcases kind with kind | kind
  all_goals
    rw [Rules.primary, peek_bind, List.headD_cons, kind]
    simp only [reads, advance_bind, pure_apply]

/-- A text in quotes is the text. -/
theorem primary_of_text
    {token : Token}
    (kind : token.kind = .string)
    (next : List Token) :
    rules.primary stop (token :: next) = .ok (.text token.position token.lexeme, next) := by
  rw [Rules.primary, peek_bind, List.headD_cons, kind]
  simp only [advance_bind, pure_apply]

theorem primary_of_truth
    {token : Token}
    (kind : token.kind = .keyword .trueWord)
    (next : List Token) :
    rules.primary stop (token :: next) = .ok (.bool token.position true, next) := by
  rw [Rules.primary, peek_bind, List.headD_cons, kind]
  simp only [advance_bind, pure_apply]

theorem primary_of_falsehood
    {token : Token}
    (kind : token.kind = .keyword .falseWord)
    (next : List Token) :
    rules.primary stop (token :: next) = .ok (.bool token.position false, next) := by
  rw [Rules.primary, peek_bind, List.headD_cons, kind]
  simp only [advance_bind, pure_apply]

theorem primary_of_undefined
    {token : Token}
    (kind : token.kind = .keyword .undefWord)
    (next : List Token) :
    rules.primary stop (token :: next) = .ok (.undefined token.position, next) := by
  rw [Rules.primary, peek_bind, List.headD_cons, kind]
  simp only [advance_bind, pure_apply]

/-- The keyword for types and an operand ask for the type of it. -/
theorem primary_of_typeof
    {ahead next : List Token}
    {keyword : Token}
    {operand : Expr}
    (keywordKind : keyword.kind = .keyword .typeofWord)
    (operandRead : rules.unary stop ahead = .ok (operand, next)) :
    rules.primary stop (keyword :: ahead) = .ok (.typeof keyword.position operand, next) := by
  rw [Rules.primary, peek_bind, List.headD_cons, keywordKind]
  simp only [advance_bind,
    bind_of_ok operandRead, pure_apply]

/-- Where a function keyword is ahead, a function is read. -/
theorem primary_of_function
    {ahead : List Token}
    (functionAhead : kindAhead ahead = .keyword .fnWord ∨
      kindAhead ahead = .keyword .lambdaWord) :
    rules.primary stop ahead = rules.function false stop ahead := by
  cases ahead with
  | nil => simp at functionAhead
  | cons keyword ahead =>
    rw [kindAhead_cons] at functionAhead
    rcases functionAhead with kind | kind <;>
      rw [Rules.primary, peek_bind, List.headD_cons, kind]

/-- An expression in parentheses is the expression. -/
theorem primary_of_grouped
    {newlines₁ ahead newlines₂ next : List Token}
    {opening closing : Token}
    {value : Expr}
    (openingKind : opening.kind = .mark .openParen)
    (newlinesBefore : Newlines newlines₁)
    (valueBegins : kindAhead ahead ≠ .newline)
    (valueRead : rules.expression stop ahead = .ok (value, newlines₂ ++ closing :: next))
    (newlinesBehind : Newlines newlines₂)
    (closingKind : closing.kind = .mark .closeParen) :
    rules.primary stop (opening :: (newlines₁ ++ ahead)) = .ok (value, next) := by
  have closingBegins : kindAhead (closing :: next) ≠ .newline := by simp [closingKind]
  rw [Rules.primary, peek_bind, List.headD_cons, openingKind]
  simp only [advance_bind,
    bind_of_ok (skipNewlines_found newlinesBefore valueBegins stop), bind_of_ok valueRead,
    bind_of_ok (skipNewlines_found newlinesBehind closingBegins stop),
    bind_of_ok (expect_found closingKind ..), pure_apply]

theorem primary_of_array
    {ahead next : List Token}
    {opening : Token}
    {items : List Expr}
    (openingKind : opening.kind = .mark .openBracket)
    (itemsRead : ∀ message,
      listUpTo .closeBracket message rules.expression stop ahead = .ok (items, next)) :
    rules.primary stop (opening :: ahead) = .ok (.array opening.position items, next) := by
  rw [Rules.primary, peek_bind, List.headD_cons, openingKind]
  simp only [advance_bind,
    bind_of_ok (itemsRead _), pure_apply]

theorem primary_of_object
    {ahead next : List Token}
    {opening : Token}
    {fields : List Field}
    (openingKind : opening.kind = .mark .openBrace)
    (fieldsRead : ∀ message,
      listUpTo .closeBrace message rules.field stop ahead = .ok (fields, next)) :
    rules.primary stop (opening :: ahead) = .ok (.object opening.position fields, next) := by
  rw [Rules.primary, peek_bind, List.headD_cons, openingKind]
  simp only [advance_bind,
    bind_of_ok (fieldsRead _), pure_apply]

/-! ## Functions and lists -/

theorem function_of_calledOnTheSpot
    {ahead next : List Token}
    {colon₁ colon₂ : Token}
    {value : Expr}
    (exported : Bool)
    (keyword : Token)
    (colonKind₁ : colon₁.kind = .mark .colon)
    (colonKind₂ : colon₂.kind = .mark .colon)
    (valueRead : rules.expression stop ahead = .ok (value, next)) :
    rules.function exported stop (keyword :: colon₁ :: colon₂ :: ahead) =
      .ok (.call keyword.position
        (.function keyword.position none exported [] (Rules.returnBody value)) [], next) := by
  simp only [Rules.function, advance_bind, bind_of_ok (accept_found colonKind₁ ..),
    bind_of_ok (accept_found colonKind₂ ..), if_true, bind_of_ok valueRead, pure_apply]

theorem function_of_betweenColons
    (stopEnds : stop.kind = .eof)
    {ahead left next : List Token}
    {colon₁ colon₂ : Token}
    {parameters : List Parameter}
    {value : Expr}
    (exported : Bool)
    (keyword : Token)
    (colonKind₁ : colon₁.kind = .mark .colon)
    (noColon : kindAhead ahead ≠ .mark .colon)
    (parametersRead : rules.parameters stop ahead = .ok (parameters, colon₂ :: left))
    (colonKind₂ : colon₂.kind = .mark .colon)
    (valueRead : rules.ternary stop left = .ok (value, next)) :
    rules.function exported stop (keyword :: colon₁ :: ahead) =
      .ok (.function keyword.position none exported parameters (Rules.returnBody value), next) := by
  simp only [Rules.function, advance_bind, bind_of_ok (accept_found colonKind₁ ..), if_true,
    bind_of_ok (accept_missing stopEnds noColon), Bool.false_eq_true, if_false,
    bind_of_ok parametersRead, bind_of_ok (expect_found colonKind₂ ..), bind_of_ok valueRead,
    pure_apply]

/-- The end of a function from its body on. -/
def functionEnd (rules : Rules) (make : List Stmt → Expr) : Parse Expr := do
  if ← check (.mark .openBrace) then
    let body ← rules.block
    pure (make body)
  else if ← accept (.mark .colon) then
    let value ← rules.ternary
    pure (make (Rules.returnBody value))
  else
    refuse (← peek) "expected `\x7b` or `:` after function parameters"

theorem function_of_named
    (stopEnds : stop.kind = .eof)
    {ahead left next : List Token}
    {keyword name : Token}
    {parameters : List Parameter}
    {body : List Stmt}
    (exported : Bool)
    (keywordKind : keyword.kind = .keyword .fnWord)
    (nameKind : name.kind = .identifier)
    (parametersRead : rules.parameters stop ahead = .ok (parameters, left))
    (bodyRead : ∀ make, functionEnd rules make stop left = .ok (make body, next)) :
    rules.function exported stop (keyword :: name :: ahead) =
      .ok (.function keyword.position (some name.lexeme) exported parameters body, next) := by
  have noColon : kindAhead (name :: ahead) ≠ .mark .colon := by simp [nameKind]
  simp only [Rules.function, advance_bind, bind_of_ok (accept_missing stopEnds noColon),
    Bool.false_eq_true, if_false, bind_of_ok (check_of_eof stopEnds .identifier _), kindAhead_cons,
    nameKind, keywordKind, beq_self_eq_true, Bool.and_self, if_true, pure_bind,
    bind_of_ok parametersRead]
  exact bodyRead (.function keyword.position (some name.lexeme) exported parameters)

theorem function_of_unnamed
    (stopEnds : stop.kind = .eof)
    {ahead left next : List Token}
    {keyword : Token}
    {parameters : List Parameter}
    {body : List Stmt}
    (exported : Bool)
    (keywordKind : keyword.kind = .keyword .fnWord ∧ kindAhead ahead ≠ .identifier ∨
      keyword.kind = .keyword .lambdaWord)
    (noColon : kindAhead ahead ≠ .mark .colon)
    (parametersRead : rules.parameters stop ahead = .ok (parameters, left))
    (bodyRead : ∀ make, functionEnd rules make stop left = .ok (make body, next)) :
    rules.function exported stop (keyword :: ahead) =
      .ok (.function keyword.position none exported parameters body, next) := by
  have unnamed : (keyword.kind == .keyword .fnWord && kindAhead ahead == .identifier) = false := by
    rcases keywordKind with ⟨kind, noName⟩ | kind
    · simp [noName]
    · simp [kind]
  simp only [Rules.function, advance_bind, bind_of_ok (accept_missing stopEnds noColon),
    Bool.false_eq_true, if_false, bind_of_ok (check_of_eof stopEnds .identifier _), unnamed,
    pure_bind, bind_of_ok parametersRead]
  exact bodyRead (.function keyword.position none exported parameters)

theorem functionEnd_of_block
    (stopEnds : stop.kind = .eof)
    {ahead next : List Token}
    {body : List Stmt}
    (blockAhead : kindAhead ahead = .mark .openBrace)
    (blockRead : rules.block stop ahead = .ok (body, next))
    (make : List Stmt → Expr) :
    functionEnd rules make stop ahead = .ok (make body, next) := by
  simp only [functionEnd, bind_of_ok (check_of_eof stopEnds ..), blockAhead, beq_self_eq_true,
    if_true, bind_of_ok blockRead, pure_apply]

theorem functionEnd_of_value
    (stopEnds : stop.kind = .eof)
    {ahead next : List Token}
    {colon : Token}
    {value : Expr}
    (colonKind : colon.kind = .mark .colon)
    (valueRead : rules.ternary stop ahead = .ok (value, next))
    (make : List Stmt → Expr) :
    functionEnd rules make stop (colon :: ahead) =
      .ok (make (Rules.returnBody value), next) := by
  have noBlock : (kindAhead (colon :: ahead) == .mark .openBrace) = false := by simp [colonKind]
  simp only [functionEnd, bind_of_ok (check_of_eof stopEnds ..), noBlock, Bool.false_eq_true,
    if_false, bind_of_ok (accept_found colonKind ..), if_true, bind_of_ok valueRead, pure_apply]

theorem parameters_of_list
    {ahead next : List Token}
    {opening : Token}
    {parameters : List Parameter}
    (openingKind : opening.kind = .mark .openParen)
    (parametersRead : ∀ message,
      listUpTo .closeParen message rules.parameter stop ahead = .ok (parameters, next)) :
    rules.parameters stop (opening :: ahead) = .ok (parameters, next) := by
  simp only [Rules.parameters, bind_of_ok (accept_found openingKind ..), if_true, parametersRead]

/-- Parameters need no parentheses. -/
theorem parameters_of_bare
    (stopEnds : stop.kind = .eof)
    {ahead next : List Token}
    {parameters : List Parameter}
    (noList : kindAhead ahead ≠ .mark .openParen)
    (parametersRead : rules.bareParameters ahead stop ahead = .ok (parameters, next)) :
    rules.parameters stop ahead = .ok (parameters, next) := by
  simp only [Rules.parameters, bind_of_ok (accept_missing stopEnds noList), Bool.false_eq_true,
    if_false, withAhead_apply, parametersRead]

theorem bareParameters_of_end
    {next : List Token}
    (ends : (next.headD stop).kind ≠ .identifier)
    (bound : List Token) :
    rules.bareParameters bound stop next = .ok ([], next) := by
  cases bound with
  | nil => rfl
  | cons _ bound =>
    have noName : ((next.headD stop).kind == .identifier) = false := by
      rwa [beq_eq_false_iff_ne]
    simp only [Rules.bareParameters, bind_of_ok (check_apply ..), noName, Bool.false_eq_true,
      if_false, pure_apply]

/-- A name is a parameter without a default. -/
theorem bareParameters_of_required
    (stopEnds : stop.kind = .eof)
    {ahead bound next : List Token}
    {name : Token}
    {others : List Parameter}
    (nameKind : name.kind = .identifier)
    (noDefault : kindAhead ahead ≠ .sign .assign)
    (othersRead : rules.bareParameters bound stop ahead = .ok (others, next))
    (placeholder : Token) :
    rules.bareParameters (placeholder :: bound) stop (name :: ahead) =
      .ok (.required name.lexeme :: others, next) := by
  simp only [Rules.bareParameters, bind_of_ok (check_of_eof stopEnds ..), kindAhead_cons, nameKind,
    beq_self_eq_true, if_true, advance_bind, bind_of_ok (accept_missing stopEnds noDefault),
    Bool.false_eq_true, if_false, pure_bind, bind_of_ok othersRead, pure_apply]

/-- A name, an equals sign and an expression in parentheses are a parameter with a default. -/
theorem bareParameters_of_optional
    (stopEnds : stop.kind = .eof)
    {ahead left bound next : List Token}
    {name equals opening closing : Token}
    {default : Expr}
    {others : List Parameter}
    (nameKind : name.kind = .identifier)
    (equalsKind : equals.kind = .sign .assign)
    (openingKind : opening.kind = .mark .openParen)
    (defaultRead : rules.expression stop ahead = .ok (default, closing :: left))
    (closingKind : closing.kind = .mark .closeParen)
    (othersRead : rules.bareParameters bound stop left = .ok (others, next))
    (placeholder : Token) :
    rules.bareParameters (placeholder :: bound) stop (name :: equals :: opening :: ahead) =
      .ok (.optional name.lexeme default :: others, next) := by
  simp only [Rules.bareParameters, bind_of_ok (check_of_eof stopEnds ..), kindAhead_cons, nameKind,
    beq_self_eq_true, if_true, advance_bind, bind_of_ok (accept_found equalsKind ..),
    bind_of_ok (expect_found openingKind ..), bind_of_ok defaultRead,
    bind_of_ok (expect_found closingKind ..), pure_bind, bind_of_ok othersRead, pure_apply]

/-- A key, a colon and a value are a property. -/
theorem field_of_pair
    {newlines₁ newlines₂ ahead next : List Token}
    {key colon : Token}
    {value : Expr}
    (keyKind : key.kind = .identifier ∨ key.kind = .string)
    (newlinesBefore : Newlines newlines₁)
    (colonKind : colon.kind = .mark .colon)
    (newlinesBehind : Newlines newlines₂)
    (valueBegins : kindAhead ahead ≠ .newline)
    (valueRead : rules.expression stop ahead = .ok (value, next)) :
    rules.field stop (key :: (newlines₁ ++ colon :: (newlines₂ ++ ahead))) =
      .ok (.mk key.lexeme value, next) := by
  have colonBegins : kindAhead (colon :: (newlines₂ ++ ahead)) ≠ .newline := by simp [colonKind]
  rw [Rules.field, peek_bind, List.headD_cons, if_pos keyKind]
  simp only [advance_bind, bind_of_ok (skipNewlines_found newlinesBefore colonBegins stop),
    bind_of_ok (accept_found colonKind ..), if_true,
    bind_of_ok (skipNewlines_found newlinesBehind valueBegins stop), bind_of_ok valueRead,
    pure_apply]

/-- A key alone is a property with the value that the name has. -/
theorem field_of_shorthand
    (stopEnds : stop.kind = .eof)
    {newlines next : List Token}
    {key : Token}
    (keyKind : key.kind = .identifier ∨ key.kind = .string)
    (newlinesBehind : Newlines newlines)
    (ends : kindAhead next = .mark .comma ∨ kindAhead next = .mark .closeBrace) :
    rules.field stop (key :: (newlines ++ next)) =
      .ok (.mk key.lexeme (.name key.position key.lexeme), next) := by
  have nextBegins : kindAhead next ≠ .newline := by
    rcases ends with ends | ends <;> simp [ends]
  have noColon : kindAhead next ≠ .mark .colon := by
    rcases ends with ends | ends <;> simp [ends]
  have isEnd : (kindAhead next == .mark .comma || kindAhead next == .mark .closeBrace) = true := by
    simpa using ends
  rw [Rules.field, peek_bind, List.headD_cons, if_pos keyKind]
  simp only [advance_bind, bind_of_ok (skipNewlines_found newlinesBehind nextBegins stop),
    bind_of_ok (accept_missing stopEnds noColon), Bool.false_eq_true, if_false,
    bind_of_ok (check_of_eof stopEnds ..), isEnd, if_true, pure_apply]

/-- A name alone is a parameter without a default. -/
theorem parameter_of_required
    (stopEnds : stop.kind = .eof)
    {next : List Token}
    {name : Token}
    (nameKind : name.kind = .identifier)
    (noDefault : kindAhead next ≠ .sign .assign) :
    rules.parameter stop (name :: next) = .ok (.required name.lexeme, next) := by
  simp only [Rules.parameter, bind_of_ok (expect_found nameKind ..),
    bind_of_ok (accept_missing stopEnds noDefault), Bool.false_eq_true, if_false, pure_apply]

/-- A name, an equals sign and an expression are a parameter with a default. -/
theorem parameter_of_optional
    {ahead next : List Token}
    {name equals : Token}
    {default : Expr}
    (nameKind : name.kind = .identifier)
    (equalsKind : equals.kind = .sign .assign)
    (defaultRead : rules.ternary stop ahead = .ok (default, next)) :
    rules.parameter stop (name :: equals :: ahead) = .ok (.optional name.lexeme default, next) := by
  simp only [Rules.parameter, bind_of_ok (expect_found nameKind ..),
    bind_of_ok (accept_found equalsKind ..), if_true, bind_of_ok defaultRead, pure_apply]

/-- A closing bracket ends a list without items. -/
theorem itemsUpTo_of_none
    (stopEnds : stop.kind = .eof)
    {mark : Mark}
    {closing : Token}
    (closingKind : closing.kind = .mark mark)
    (item : Parse α)
    (placeholder : Token)
    (bound next : List Token) :
    itemsUpTo mark item (placeholder :: bound) stop (closing :: next) =
      .ok ([], closing :: next) := by
  simp only [itemsUpTo, bind_of_ok (check_of_eof stopEnds ..), kindAhead_cons, closingKind,
    beq_self_eq_true, if_true, pure_apply]

/-- An item without a comma behind it is the last one. -/
theorem itemsUpTo_of_last
    (stopEnds : stop.kind = .eof)
    {mark : Mark}
    (noComma : mark ≠ .comma)
    {item : Parse α}
    {ahead newlines next : List Token}
    {closing : Token}
    {last : α}
    (noClosing : kindAhead ahead ≠ .mark mark)
    (lastRead : item stop ahead = .ok (last, newlines ++ closing :: next))
    (newlinesBehind : Newlines newlines)
    (closingKind : closing.kind = .mark mark)
    (placeholder : Token)
    (bound : List Token) :
    itemsUpTo mark item (placeholder :: bound) stop ahead = .ok ([last], closing :: next) := by
  have notClosed : (kindAhead ahead == .mark mark) = false := by simp [noClosing]
  have closingBegins : kindAhead (closing :: next) ≠ .newline := by simp [closingKind]
  have closingOther : kindAhead (closing :: next) ≠ .mark .comma := by simp [closingKind, noComma]
  simp only [itemsUpTo, bind_of_ok (check_of_eof stopEnds ..), notClosed, Bool.false_eq_true,
    if_false, bind_of_ok lastRead,
    bind_of_ok (skipNewlines_found newlinesBehind closingBegins stop),
    bind_of_ok (accept_missing stopEnds closingOther), pure_apply]

/-- An item with a comma behind it comes before the others. -/
theorem itemsUpTo_of_more
    (stopEnds : stop.kind = .eof)
    {mark : Mark}
    {item : Parse α}
    {ahead newlines₁ newlines₂ left bound next : List Token}
    {comma : Token}
    {first : α}
    {others : List α}
    (noClosing : kindAhead ahead ≠ .mark mark)
    (firstRead : item stop ahead = .ok (first, newlines₁ ++ comma :: (newlines₂ ++ left)))
    (newlinesBefore : Newlines newlines₁)
    (commaKind : comma.kind = .mark .comma)
    (newlinesBehind : Newlines newlines₂)
    (othersBegin : kindAhead left ≠ .newline)
    (othersRead : itemsUpTo mark item bound stop left = .ok (others, next))
    (placeholder : Token) :
    itemsUpTo mark item (placeholder :: bound) stop ahead = .ok (first :: others, next) := by
  have notClosed : (kindAhead ahead == .mark mark) = false := by simp [noClosing]
  have commaBegins : kindAhead (comma :: (newlines₂ ++ left)) ≠ .newline := by simp [commaKind]
  simp only [itemsUpTo, bind_of_ok (check_of_eof stopEnds ..), notClosed, Bool.false_eq_true,
    if_false, bind_of_ok firstRead,
    bind_of_ok (skipNewlines_found newlinesBefore commaBegins stop),
    bind_of_ok (accept_found commaKind ..), if_true,
    bind_of_ok (skipNewlines_found newlinesBehind othersBegin stop), bind_of_ok othersRead,
    pure_apply]

/-- Items with a closing bracket behind them are a list. -/
theorem listUpTo_of_items
    {mark : Mark}
    {item : Parse α}
    {newlines ahead next : List Token}
    {closing : Token}
    {items : List α}
    (newlinesBefore : Newlines newlines)
    (itemsBegin : kindAhead ahead ≠ .newline)
    (itemsRead : itemsUpTo mark item (ahead.headD stop :: ahead) stop ahead =
      .ok (items, closing :: next))
    (closingKind : closing.kind = .mark mark)
    (message : String) :
    listUpTo mark message item stop (newlines ++ ahead) = .ok (items, next) := by
  simp only [listUpTo, bind_of_ok (skipNewlines_found newlinesBefore itemsBegin stop), peek_bind]
  rw [bind_of_ok ((withAhead_apply ..).trans itemsRead),
    bind_of_ok (expect_found closingKind ..), pure_apply]

/-! ## Blocks and statements -/

theorem statementsUpTo_of_end
    {isEnd : Token → Bool}
    {next : List Token}
    (atEnd : isEnd (next.headD stop) = true)
    (statement : Parse Stmt)
    (bound : List Token) :
    Rules.statementsUpTo statement isEnd bound stop next = .ok ([], next) := by
  cases bound with
  | nil => rfl
  | cons _ bound =>
    simp only [Rules.statementsUpTo, peek_bind, atEnd, if_true, pure_apply]

/-- A statement with separators behind it comes before the others. -/
theorem statementsUpTo_of_more
    {statement : Parse Stmt}
    {isEnd : Token → Bool}
    {ahead separators left bound next : List Token}
    {first : Stmt}
    {others : List Stmt}
    (notEnd : isEnd (ahead.headD stop) = false)
    (firstRead : statement stop ahead = .ok (first, separators ++ left))
    (separated : Separators separators)
    (noNewline : kindAhead left ≠ .newline)
    (noSemicolon : kindAhead left ≠ .mark .semicolon)
    (othersRead : Rules.statementsUpTo statement isEnd bound stop left = .ok (others, next))
    (placeholder : Token) :
    Rules.statementsUpTo statement isEnd (placeholder :: bound) stop ahead =
      .ok (first :: others, next) := by
  simp only [Rules.statementsUpTo, peek_bind, notEnd, Bool.false_eq_true, if_false,
    bind_of_ok firstRead,
    bind_of_ok (skipSeparators_found separated noNewline noSemicolon stop),
    bind_of_ok othersRead, pure_apply]

/-- Separators in front of statements are passed over. -/
theorem statements_of_ahead
    {statement : Parse Stmt}
    {isEnd : Token → Bool}
    {separators ahead next : List Token}
    {statements : List Stmt}
    (separated : Separators separators)
    (noNewline : kindAhead ahead ≠ .newline)
    (noSemicolon : kindAhead ahead ≠ .mark .semicolon)
    (statementsRead : Rules.statementsUpTo statement isEnd ahead stop ahead =
      .ok (statements, next)) :
    Rules.statements statement isEnd stop (separators ++ ahead) = .ok (statements, next) := by
  simp only [Rules.statements,
    bind_of_ok (skipSeparators_found separated noNewline noSemicolon stop), withAhead_apply,
    statementsRead]

/-- Statements in braces are a block. -/
theorem block_of_statements
    {ahead next : List Token}
    {opening closing : Token}
    {statements : List Stmt}
    (openingKind : opening.kind = .mark .openBrace)
    (statementsRead : Rules.statements rules.statement Rules.endsBlock stop ahead =
      .ok (statements, closing :: next))
    (closingKind : closing.kind = .mark .closeBrace) :
    rules.block stop (opening :: ahead) = .ok (statements, next) := by
  simp only [Rules.block, bind_of_ok (expect_found openingKind ..), bind_of_ok statementsRead,
    bind_of_ok (expect_found closingKind ..), pure_apply]

/-- A block is a body. -/
theorem body_of_block
    (stopEnds : stop.kind = .eof)
    {ahead next : List Token}
    {statements : List Stmt}
    (blockAhead : kindAhead ahead = .mark .openBrace)
    (blockRead : rules.block stop ahead = .ok (statements, next))
    (context : String) :
    rules.body context stop ahead = .ok (statements, next) := by
  simp only [Rules.body, bind_of_ok (check_of_eof stopEnds ..), blockAhead, beq_self_eq_true,
    if_true, blockRead]

/-- A colon and a statement are a body. -/
theorem body_of_statement
    (stopEnds : stop.kind = .eof)
    {ahead next : List Token}
    {colon : Token}
    {statement : Stmt}
    (colonKind : colon.kind = .mark .colon)
    (statementRead : rules.statement stop ahead = .ok (statement, next))
    (context : String) :
    rules.body context stop (colon :: ahead) = .ok ([statement], next) := by
  have noBlock : (kindAhead (colon :: ahead) == .mark .openBrace) = false := by simp [colonKind]
  simp only [Rules.body, bind_of_ok (check_of_eof stopEnds ..), noBlock, Bool.false_eq_true,
    if_false, bind_of_ok (accept_found colonKind ..), if_true, bind_of_ok statementRead, pure_apply]

/-- A branch may follow the word for the alternative. -/
theorem alternative_of_branch
    (stopEnds : stop.kind = .eof)
    {ahead next : List Token}
    {statement : Stmt}
    (branchAhead : kindAhead ahead = .keyword .ifWord)
    (branchRead : rules.branch stop ahead = .ok (statement, next)) :
    rules.alternative stop ahead = .ok ([statement], next) := by
  simp only [Rules.alternative, bind_of_ok (check_of_eof stopEnds ..), branchAhead,
    beq_self_eq_true, if_true, bind_of_ok branchRead, pure_apply]

/-- A block may follow the word for the alternative. -/
theorem alternative_of_block
    (stopEnds : stop.kind = .eof)
    {ahead next : List Token}
    {statements : List Stmt}
    (blockAhead : kindAhead ahead = .mark .openBrace)
    (blockRead : rules.block stop ahead = .ok (statements, next)) :
    rules.alternative stop ahead = .ok (statements, next) := by
  have noBranch : (kindAhead ahead == .keyword .ifWord) = false := by simp [blockAhead]
  have isBlock : (kindAhead ahead == .mark .openBrace) = true := by simp [blockAhead]
  simp only [Rules.alternative, bind_of_ok (check_of_eof stopEnds ..), noBranch, isBlock,
    Bool.false_eq_true, if_false, if_true, blockRead]

/-- A colon and a statement may follow the word for the alternative. -/
theorem alternative_of_colon
    (stopEnds : stop.kind = .eof)
    {ahead next : List Token}
    {colon : Token}
    {statement : Stmt}
    (colonKind : colon.kind = .mark .colon)
    (statementRead : rules.statement stop ahead = .ok (statement, next)) :
    rules.alternative stop (colon :: ahead) = .ok ([statement], next) := by
  have noBranch : (kindAhead (colon :: ahead) == .keyword .ifWord) = false := by simp [colonKind]
  have noBlock : (kindAhead (colon :: ahead) == .mark .openBrace) = false := by simp [colonKind]
  simp only [Rules.alternative, bind_of_ok (check_of_eof stopEnds ..), noBranch, noBlock,
    Bool.false_eq_true, if_false, bind_of_ok (accept_found colonKind ..),
    bind_of_ok statementRead, pure_apply]

/-- A statement may follow the word for the alternative without a colon. -/
theorem alternative_of_statement
    (stopEnds : stop.kind = .eof)
    {ahead next : List Token}
    {statement : Stmt}
    (branchless : kindAhead ahead ≠ .keyword .ifWord)
    (blockless : kindAhead ahead ≠ .mark .openBrace)
    (noColon : kindAhead ahead ≠ .mark .colon)
    (statementRead : rules.statement stop ahead = .ok (statement, next)) :
    rules.alternative stop ahead = .ok ([statement], next) := by
  have noBranch : (kindAhead ahead == .keyword .ifWord) = false := by simp [branchless]
  have noBlock : (kindAhead ahead == .mark .openBrace) = false := by simp [blockless]
  simp only [Rules.alternative, bind_of_ok (check_of_eof stopEnds ..), noBranch, noBlock,
    Bool.false_eq_true, if_false, bind_of_ok (accept_missing stopEnds noColon),
    bind_of_ok statementRead, pure_apply]

/-- A branch goes on with its alternative, also behind line breaks. -/
theorem branchForm_of_else
    {ahead left₁ newlines left₂ next : List Token}
    {otherwise : Token}
    {test : Expr}
    {consequent alternate : List Stmt}
    (keyword : Token)
    (testRead : rules.expression stop ahead = .ok (test, left₁))
    (consequentRead : ∀ context,
      rules.body context stop left₁ = .ok (consequent, newlines ++ otherwise :: left₂))
    (newlinesBefore : Newlines newlines)
    (otherwiseKind : otherwise.kind = .keyword .elseWord)
    (alternateRead : rules.alternative stop left₂ = .ok (alternate, next)) :
    rules.branchForm stop (keyword :: ahead) =
      .ok (.branch keyword.position test consequent alternate, next) := by
  have noNewline : Token.Kind.keyword .elseWord ≠ .newline := by simp
  simp only [Rules.branchForm, advance_bind, bind_of_ok testRead, bind_of_ok (consequentRead _),
    bind_of_ok (acceptPastNewlines_found noNewline newlinesBefore otherwiseKind ..), if_true,
    bind_of_ok alternateRead, pure_apply]

/-- A branch ends when no word for the alternative follows, and leaves the line breaks. -/
theorem branchForm_of_end
    (stopEnds : stop.kind = .eof)
    {ahead left next : List Token}
    {test : Expr}
    {consequent : List Stmt}
    (keyword : Token)
    (testRead : rules.expression stop ahead = .ok (test, left))
    (consequentRead : ∀ context, rules.body context stop left = .ok (consequent, next))
    (noElse : kindAhead (next.dropWhile (·.kind == .newline)) ≠ .keyword .elseWord) :
    rules.branchForm stop (keyword :: ahead) =
      .ok (.branch keyword.position test consequent [], next) := by
  simp only [Rules.branchForm, advance_bind, bind_of_ok testRead, bind_of_ok (consequentRead _),
    bind_of_ok (acceptPastNewlines_missing stopEnds noElse), Bool.false_eq_true, if_false,
    pure_bind, pure_apply]

theorem bareStatement_of_branch
    {keyword : Token}
    (keywordKind : keyword.kind = .keyword .ifWord)
    (ahead : List Token) :
    rules.bareStatement stop (keyword :: ahead) = rules.branchForm stop (keyword :: ahead) := by
  rw [Rules.bareStatement, peek_bind, List.headD_cons, keywordKind]

/-- The keyword, a test and a body are a loop. -/
theorem bareStatement_of_while
    {ahead left next : List Token}
    {keyword : Token}
    {test : Expr}
    {body : List Stmt}
    (keywordKind : keyword.kind = .keyword .whileWord)
    (testRead : rules.expression stop ahead = .ok (test, left))
    (bodyRead : ∀ context, rules.body context stop left = .ok (body, next)) :
    rules.bareStatement stop (keyword :: ahead) =
      .ok (.whileLoop keyword.position test body, next) := by
  rw [Rules.bareStatement, peek_bind, List.headD_cons, keywordKind]
  simp only [Rules.whileForm, advance_bind, bind_of_ok testRead, bind_of_ok (bodyRead _),
    pure_apply]

/-- The keyword, three expressions with semicolons between them and a body are a loop. -/
theorem bareStatement_of_for
    {ahead left₁ left₂ left₃ next : List Token}
    {keyword semicolon₁ semicolon₂ : Token}
    {start test update : Expr}
    {body : List Stmt}
    (keywordKind : keyword.kind = .keyword .forWord)
    (startRead : rules.expression stop ahead = .ok (start, semicolon₁ :: left₁))
    (semicolonKind₁ : semicolon₁.kind = .mark .semicolon)
    (testRead : rules.expression stop left₁ = .ok (test, semicolon₂ :: left₂))
    (semicolonKind₂ : semicolon₂.kind = .mark .semicolon)
    (updateRead : rules.expression stop left₂ = .ok (update, left₃))
    (bodyRead : rules.block stop left₃ = .ok (body, next)) :
    rules.bareStatement stop (keyword :: ahead) =
      .ok (.forLoop keyword.position start test update body, next) := by
  rw [Rules.bareStatement, peek_bind, List.headD_cons, keywordKind]
  simp only [Rules.forForm, advance_bind, bind_of_ok startRead,
    bind_of_ok (expect_found semicolonKind₁ ..),
    bind_of_ok testRead, bind_of_ok (expect_found semicolonKind₂ ..), bind_of_ok updateRead,
    bind_of_ok bodyRead, pure_apply]

/-- The keyword and a value are a return of it. -/
theorem bareStatement_of_returnValue
    (stopEnds : stop.kind = .eof)
    {ahead next : List Token}
    {keyword : Token}
    {value : Expr}
    (keywordKind : keyword.kind = .keyword .returnWord)
    (valueAhead : beginsValue (kindAhead ahead) = true)
    (valueRead : rules.expression stop ahead = .ok (value, next)) :
    rules.bareStatement stop (keyword :: ahead) =
      .ok (.returnValue keyword.position value, next) := by
  have noEnd : Rules.endsReturn (ahead.headD stop) = false := by
    rw [Rules.endsReturn, kind_headD stopEnds]
    cases kind : kindAhead ahead with
    | mark mark =>
      rw [kind] at valueAhead
      cases mark <;> first | rfl | cases valueAhead
    | _ => first | rfl | (rw [kind] at valueAhead; cases valueAhead)
  rw [Rules.bareStatement, peek_bind, List.headD_cons, keywordKind]
  simp only [Rules.returnForm, advance_bind, peek_bind, noEnd, Bool.false_eq_true, if_false,
    bind_of_ok valueRead, pure_apply]

/-- The keyword alone is a return without a value. -/
theorem bareStatement_of_returnNothing
    (stopEnds : stop.kind = .eof)
    {next : List Token}
    {keyword : Token}
    (keywordKind : keyword.kind = .keyword .returnWord)
    (ends : kindAhead next = .newline ∨ kindAhead next = .mark .semicolon ∨
      kindAhead next = .mark .closeBrace ∨ kindAhead next = .eof) :
    rules.bareStatement stop (keyword :: next) = .ok (.returnNothing keyword.position, next) := by
  have atEnd : Rules.endsReturn (next.headD stop) = true := by
    rw [Rules.endsReturn, kind_headD stopEnds]
    simpa [or_assoc] using ends
  rw [Rules.bareStatement, peek_bind, List.headD_cons, keywordKind]
  simp only [Rules.returnForm, advance_bind, peek_bind, atEnd, if_true, pure_apply]

/-- The keyword and values in braces show these. -/
theorem bareStatement_of_debugList
    {ahead next : List Token}
    {keyword opening : Token}
    {values : List Expr}
    (keywordKind : keyword.kind = .keyword .debugWord)
    (openingKind : opening.kind = .mark .openBrace)
    (valuesRead : ∀ message,
      listUpTo .closeBrace message rules.expression stop ahead = .ok (values, next)) :
    rules.bareStatement stop (keyword :: opening :: ahead) =
      .ok (.debug keyword.position values, next) := by
  rw [Rules.bareStatement, peek_bind, List.headD_cons, keywordKind]
  simp only [Rules.debugForm, advance_bind, bind_of_ok (accept_found openingKind ..), if_true,
    bind_of_ok (valuesRead _), pure_apply]

/-- The keyword and a value show it. -/
theorem bareStatement_of_debugValue
    (stopEnds : stop.kind = .eof)
    {ahead next : List Token}
    {keyword : Token}
    {value : Expr}
    (keywordKind : keyword.kind = .keyword .debugWord)
    (noList : kindAhead ahead ≠ .mark .openBrace)
    (valueRead : rules.expression stop ahead = .ok (value, next)) :
    rules.bareStatement stop (keyword :: ahead) = .ok (.debug keyword.position [value], next) := by
  rw [Rules.bareStatement, peek_bind, List.headD_cons, keywordKind]
  simp only [Rules.debugForm, advance_bind, bind_of_ok (accept_missing stopEnds noList),
    Bool.false_eq_true, if_false,
    bind_of_ok valueRead, pure_apply]

/-- The keyword and a path in quotes use what is there. -/
theorem bareStatement_of_use
    {keyword path : Token}
    (keywordKind : keyword.kind = .keyword .useWord)
    (pathKind : path.kind = .string)
    (next : List Token) :
    rules.bareStatement stop (keyword :: path :: next) =
      .ok (.use keyword.position path.lexeme, next) := by
  rw [Rules.bareStatement, peek_bind, List.headD_cons, keywordKind]
  simp only [Rules.useForm, advance_bind, bind_of_ok (expect_found pathKind ..), pure_apply]

/-- The keyword and a function export it. -/
theorem bareStatement_of_exported
    (stopEnds : stop.kind = .eof)
    {ahead next : List Token}
    {keyword : Token}
    {function : Expr}
    (keywordKind : keyword.kind = .keyword .outWord)
    (functionAhead : kindAhead ahead = .keyword .fnWord)
    (functionRead : rules.function true stop ahead = .ok (function, next)) :
    rules.bareStatement stop (keyword :: ahead) = .ok (.expr keyword.position function, next) := by
  rw [Rules.bareStatement, peek_bind, List.headD_cons, keywordKind]
  simp only [Rules.exportForm, advance_bind, bind_of_ok (check_of_eof stopEnds ..), functionAhead,
    beq_self_eq_true, if_true,
    bind_of_ok functionRead, pure_apply]

/-- An expression is a statement. -/
theorem bareStatement_of_value
    (stopEnds : stop.kind = .eof)
    {ahead next : List Token}
    {value : Expr}
    (valueAhead : beginsValue (kindAhead ahead) = true)
    (valueRead : rules.assignment stop ahead = .ok (value, next)) :
    rules.bareStatement stop ahead = .ok (.expr value.position value, next) := by
  have readsValue : rules.bareStatement stop ahead =
      (do
        let value ← rules.assignment
        pure (Stmt.expr value.position value)) stop ahead := by
    rw [Rules.bareStatement, peek_bind, kind_headD stopEnds]
    cases kind : kindAhead ahead with
    | keyword word =>
      rw [kind] at valueAhead
      cases word <;> first | rfl | cases valueAhead
    | _ => rfl
  rw [readsValue, bind_of_ok valueRead, pure_apply]

/-- One semicolon belongs to the statement in front of it. -/
theorem statementForm_of_ended
    {ahead next : List Token}
    {semicolon : Token}
    {statement : Stmt}
    (statementRead : rules.bareStatement stop ahead = .ok (statement, semicolon :: next))
    (semicolonKind : semicolon.kind = .mark .semicolon) :
    rules.statementForm stop ahead = .ok (statement, next) := by
  simp only [Rules.statementForm, bind_of_ok statementRead,
    bind_of_ok (accept_found semicolonKind ..), pure_apply]

/-- A statement needs no semicolon. -/
theorem statementForm_of_unended
    (stopEnds : stop.kind = .eof)
    {ahead next : List Token}
    {statement : Stmt}
    (statementRead : rules.bareStatement stop ahead = .ok (statement, next))
    (noSemicolon : kindAhead next ≠ .mark .semicolon) :
    rules.statementForm stop ahead = .ok (statement, next) := by
  simp only [Rules.statementForm, bind_of_ok statementRead,
    bind_of_ok (accept_missing stopEnds noSemicolon), pure_apply]

end Grammar
end TinyScript
