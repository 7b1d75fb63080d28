import TinyScript.Proofs.Grammar.Positions
import TinyScript.Proofs.Grammar.Printer
import TinyScript.Proofs.Syntax.Induction
import TinyScript.Proofs.Token.Tiling

/-!
# Programs that are read are printable

Of the tokens of a source the grammar makes printable programs only.  The names
and numbers of a program are lexemes of tokens, and the export mark is given in
one place.
-/

namespace TinyScript

/-! ## Tokens of a source -/

/-- A token such as stands in some source. -/
def Token.Genuine (token : Token) : Prop :=
  ∃ slice beyond, Token.Spelled token.kind token.lexeme slice beyond

namespace Token

/-- A numeral is a whole number or one with a point. -/
theorem numberKind_cases
    (digits : List Char) :
    Scanner.numberKind digits = .int ∨ Scanner.numberKind digits = .float := by
  unfold Scanner.numberKind
  split
  · exact .inr rfl
  · exact .inl rfl

/-- An operator is one of the signs, or unknown. -/
theorem operatorKind_cases
    (text : String) :
    (∃ sign, Scanner.operatorKind text = .sign sign) ∨ Scanner.operatorKind text = .operator := by
  unfold Scanner.operatorKind
  split
  · exact .inl ⟨_, rfl⟩
  · exact .inr rfl

/-- A word is a keyword or a name. -/
theorem wordKind_cases
    (word : String) :
    Scanner.wordKind word = .identifier ∨ ∃ keyword, Scanner.wordKind word = .keyword keyword := by
  unfold Scanner.wordKind
  split
  · exact .inr ⟨_, rfl⟩
  · exact .inl rfl

/-- A name or a keyword is spelled as a word. -/
theorem Spelled.isWord
    {kind : Kind}
    {lexeme : String}
    {slice beyond : List Char}
    (spelled : Spelled kind lexeme slice beyond)
    (wordlike : kind = .identifier ∨ ∃ word, kind = .keyword word) :
    Text.isWord lexeme.toList = true ∧ Scanner.wordKind lexeme = kind := by
  cases spelled with
  | word isWord =>
    rw [String.toList_ofList]
    exact ⟨isWord, rfl⟩
  | number =>
    rcases numberKind_cases slice with same | same <;> simp [same] at wordlike
  | pair =>
    rcases operatorKind_cases (String.ofList slice) with ⟨_, same⟩ | same <;>
      simp [same] at wordlike
  | run =>
    rcases operatorKind_cases (String.ofList slice) with ⟨_, same⟩ | same <;>
      simp [same] at wordlike
  | _ => simp at wordlike

/-- A number is spelled as a numeral. -/
theorem Spelled.isNumeral
    {kind : Kind}
    {lexeme : String}
    {slice beyond : List Char}
    (spelled : Spelled kind lexeme slice beyond)
    (numeric : kind = .int ∨ kind = .float) :
    Token.isNumeral lexeme.toList = true := by
  cases spelled with
  | number numeral =>
    rw [String.toList_ofList]
    exact numeral
  | word =>
    rcases wordKind_cases (String.ofList slice) with same | ⟨_, same⟩ <;> simp [same] at numeric
  | pair =>
    rcases operatorKind_cases (String.ofList slice) with ⟨_, same⟩ | same <;>
      simp [same] at numeric
  | run =>
    rcases operatorKind_cases (String.ofList slice) with ⟨_, same⟩ | same <;>
      simp [same] at numeric
  | _ => simp at numeric

/-- A token for a name or keyword is spelled as a word. -/
theorem Genuine.isWord
    {token : Token}
    (genuine : token.Genuine)
    (kind : token.kind = .identifier ∨ ∃ word, token.kind = .keyword word) :
    Text.isWord token.lexeme.toList = true := by
  obtain ⟨slice, beyond, spelled⟩ := genuine
  exact (spelled.isWord kind).1

/-- A token for a name is spelled as one that is no keyword. -/
theorem Genuine.isName
    {token : Token}
    (genuine : token.Genuine)
    (kind : token.kind = .identifier) :
    IsName token.lexeme := by
  obtain ⟨slice, beyond, spelled⟩ := genuine
  obtain ⟨isWord, same⟩ := spelled.isWord (.inl kind)
  exact ⟨isWord, same.trans kind⟩

/-- A token for a number is spelled as a numeral. -/
theorem Genuine.isNumeral
    {token : Token}
    (genuine : token.Genuine)
    (kind : token.kind = .int ∨ token.kind = .float) :
    Token.isNumeral token.lexeme.toList = true := by
  obtain ⟨slice, beyond, spelled⟩ := genuine
  exact spelled.isNumeral kind

end Token

namespace Grammar

/-! ## Printable forms -/

/-- An item of a list that a source can spell. -/
def Item.Printable : (item : Item) → item.Tree → Prop
  | .value => Expr.Printable
  | .field => Field.Printable
  | .parameter => Parameter.Printable

/-- A tree that a source can spell as a form; an exported function is the whole of a statement. -/
def Form.Printable : (form : Form) → form.Tree → Prop
  | .expression _ | .operations _ | .accesses | .function false => Expr.Printable
  | .function true => fun value => ∀ position, (Stmt.expr position value).Printable
  | .parameters | .bareParameters =>
    fun parameters => ∀ parameter ∈ parameters, parameter.Printable
  | .item entry => entry.Printable
  | .items _ entry | .list _ entry => fun items => ∀ item ∈ items, entry.Printable item
  | .functionBody | .block | .body | .statements | .alternative | .program =>
    fun statements => ∀ statement ∈ statements, statement.Printable
  | .statement | .bareStatement | .branch => Stmt.Printable

/-- A printable expression marks nothing for use outside, so it is a printable statement too. -/
theorem printable_expr
    {value : Expr}
    (printable : value.Printable)
    (position : Position) :
    (Stmt.expr position value).Printable := by
  rcases Stmt.expr_cases position value with
    ⟨_, _, _, _, rfl⟩ | ⟨_, _, _, _, rfl⟩ | ⟨_, same⟩
  · cases printable.1.2.1
  · cases printable.2.1
  · exact same.2 printable

/-- An operation with printable operands is printable. -/
theorem printable_operation
    {chain : Chain}
    {sign : Token}
    {operation : Position → Expr → Expr → Expr}
    (found : chain.operation? sign = some operation)
    {left right : Expr}
    (leftPrintable : left.Printable)
    (rightPrintable : right.Printable)
    (position : Position) :
    (operation position left right).Printable := by
  obtain ⟨op, rfl⟩ | ⟨op, rfl⟩ := Chain.exists_of_operation? found <;>
    exact ⟨leftPrintable, rightPrintable⟩

/-- An operation in front of a printable operand is printable. -/
theorem printable_leading
    {sign : Token}
    {operation : Expr → Expr}
    (found : Rules.leading? sign = some operation)
    {operand : Expr}
    (printable : operand.Printable) :
    (operation operand).Printable := by
  obtain ⟨op, rfl⟩ | ⟨op, rfl⟩ := exists_of_leading? found <;> exact printable

theorem noName :
    ∀ word ∈ (none : Option String), IsName word := by
  intro word isWord
  cases isWord

/-- A function is printable, and also when it is marked for use outside as a whole statement. -/
theorem printable_function
    {name : Option String}
    {parameters : List Parameter}
    {body : List Stmt}
    (isName : ∀ word ∈ name, IsName word)
    (parametersPrintable : ∀ parameter ∈ parameters, parameter.Printable)
    (bodyPrintable : ∀ statement ∈ body, statement.Printable)
    (exported : Bool)
    (position : Position) :
    (Form.function exported).Printable (.function position name exported parameters body) := by
  rw [← Parameter.allPrintable_iff] at parametersPrintable
  rw [← Stmt.allPrintable_iff] at bodyPrintable
  cases exported with
  | false => exact ⟨isName, rfl, parametersPrintable, bodyPrintable⟩
  | true => exact fun _ => ⟨isName, parametersPrintable, bodyPrintable⟩

/-- The body of a short function with a printable result is printable. -/
theorem printable_returnBody
    {value : Expr}
    (printable : value.Printable) :
    ∀ statement ∈ Rules.returnBody value, statement.Printable := by
  rw [Rules.returnBody, List.forall_mem_singleton]
  exact printable

/-- A property with a printable value is printable. -/
theorem printable_pair
    {key : String}
    {value : Expr}
    (printable : value.Printable) :
    (Field.mk key value).Printable := by
  unfold Field.Printable
  split
  · exact .inr printable
  · exact printable

/-- Whatever genuine tokens derive is printable. -/
theorem Derives.printable
    {form : Form}
    {used next : List Token}
    {tree : form.Tree}
    (derives : Derives form used tree next)
    (genuine : ∀ token ∈ used, token.Genuine) :
    form.Printable tree := by
  induction derives with
  | assign _ _ _ targetPrintable valuePrintable =>
    simp only [List.forall_mem_append, List.forall_mem_cons] at genuine
    exact ⟨targetPrintable genuine.1, valuePrintable genuine.2.2⟩
  | compoundAssign _ _ _ targetPrintable valuePrintable =>
    simp only [List.forall_mem_append, List.forall_mem_cons] at genuine
    have target := targetPrintable genuine.1
    exact ⟨target, target, valuePrintable genuine.2.2⟩
  | declare _ _ _ _ _ targetPrintable valuePrintable =>
    simp only [List.forall_mem_append, List.forall_mem_cons] at genuine
    exact ⟨targetPrintable genuine.1, valuePrintable genuine.2.2.2.2⟩
  | choice _ _ _ _ _ testPrintable consequentPrintable alternatePrintable =>
    simp only [List.forall_mem_append, List.forall_mem_cons] at genuine
    exact ⟨testPrintable genuine.1, consequentPrintable genuine.2.2.1,
      alternatePrintable genuine.2.2.2.2⟩
  | operation _ found _ leftPrintable rightPrintable =>
    simp only [List.forall_mem_append, List.forall_mem_cons] at genuine
    exact printable_operation found (leftPrintable genuine.1) (rightPrintable genuine.2.2) _
  | leading found _ operandPrintable =>
    rw [List.forall_mem_cons] at genuine
    exact printable_leading found (operandPrintable genuine.2)
  | trailing _ _ operandPrintable =>
    rw [List.forall_mem_append] at genuine
    exact operandPrintable genuine.1
  | call _ _ _ calleePrintable argumentsPrintable =>
    simp only [List.forall_mem_append, List.forall_mem_cons] at genuine
    exact ⟨calleePrintable genuine.1,
      (Expr.allPrintable_iff _).2 (argumentsPrintable genuine.2.2)⟩
  | member _ _ keyKind subjectPrintable =>
    simp only [List.forall_mem_append, List.forall_mem_cons] at genuine
    exact ⟨subjectPrintable genuine.1, genuine.2.2.1.isWord keyKind⟩
  | index _ _ _ _ _ _ subjectPrintable keyPrintable =>
    simp only [List.forall_mem_append, List.forall_mem_cons] at genuine
    exact ⟨subjectPrintable genuine.1, keyPrintable genuine.2.2.1.1.2⟩
  | name kind =>
    rw [List.forall_mem_singleton] at genuine
    exact genuine.isName kind
  | number kind reads =>
    rw [List.forall_mem_singleton] at genuine
    exact ⟨_, genuine.isNumeral kind, reads⟩
  | text | truth | falsehood | undefined => trivial
  | typeof _ _ operandPrintable =>
    rw [List.forall_mem_cons] at genuine
    exact operandPrintable genuine.2
  | grouped _ _ _ _ _ valuePrintable =>
    simp only [List.forall_mem_append, List.forall_mem_cons] at genuine
    exact valuePrintable genuine.2.1.1.2
  | array _ _ itemsPrintable =>
    rw [List.forall_mem_cons] at genuine
    exact (Expr.allPrintable_iff _).2 (itemsPrintable genuine.2)
  | object _ _ fieldsPrintable =>
    rw [List.forall_mem_cons] at genuine
    exact (Field.allPrintable_iff _).2 (fieldsPrintable genuine.2)
  | @calledOnTheSpot exported _ _ _ _ _ _ _ _ _ _ valuePrintable =>
    simp only [List.forall_mem_cons] at genuine
    have value := valuePrintable genuine.2.2.2
    cases exported with
    | false => exact ⟨⟨noName, rfl, trivial, value, trivial⟩, trivial⟩
    | true => exact fun _ => value
  | betweenColons _ _ _ _ _ _ parametersPrintable valuePrintable =>
    simp only [List.forall_mem_append, List.forall_mem_cons] at genuine
    exact printable_function noName (parametersPrintable genuine.2.2.1)
      (printable_returnBody (valuePrintable genuine.2.2.2.2)) _ _
  | named _ nameKind _ _ parametersPrintable bodyPrintable =>
    simp only [List.forall_mem_append, List.forall_mem_cons] at genuine
    refine printable_function ?_ (parametersPrintable genuine.2.2.1)
      (bodyPrintable genuine.2.2.2) _ _
    intro word isWord
    rw [← Option.mem_some.1 isWord]
    exact genuine.2.1.isName nameKind
  | unnamed _ _ _ _ parametersPrintable bodyPrintable =>
    simp only [List.forall_mem_append, List.forall_mem_cons] at genuine
    exact printable_function noName (parametersPrintable genuine.2.1)
      (bodyPrintable genuine.2.2) _ _
  | functionValue _ _ valuePrintable =>
    rw [List.forall_mem_cons] at genuine
    exact printable_returnBody (valuePrintable genuine.2)
  | listedParameters _ _ parametersPrintable =>
    rw [List.forall_mem_cons] at genuine
    exact parametersPrintable genuine.2
  | noParameters | noItems | noStatements => nofun
  | requiredParameters nameKind _ _ othersPrintable =>
    rw [List.forall_mem_cons] at genuine
    exact List.forall_mem_cons.2 ⟨genuine.1.isName nameKind, othersPrintable genuine.2⟩
  | optionalParameters nameKind _ _ _ _ _ defaultPrintable othersPrintable =>
    simp only [List.forall_mem_append, List.forall_mem_cons] at genuine
    exact List.forall_mem_cons.2 ⟨⟨genuine.1.isName nameKind, defaultPrintable genuine.2.2.2.1⟩,
      othersPrintable genuine.2.2.2.2.2⟩
  | field keyKind _ _ _ _ valuePrintable =>
    simp only [List.forall_mem_append, List.forall_mem_cons] at genuine
    exact printable_pair (valuePrintable genuine.2.2.2.2)
  | shorthand => exact .inl rfl
  | requiredParameter nameKind _ =>
    rw [List.forall_mem_singleton] at genuine
    exact genuine.isName nameKind
  | optionalParameter nameKind _ _ defaultPrintable =>
    simp only [List.forall_mem_cons] at genuine
    exact ⟨genuine.1.isName nameKind, defaultPrintable genuine.2.2⟩
  | list _ _ itemsPrintable =>
    rw [List.forall_mem_append] at genuine
    exact itemsPrintable genuine.2
  | lastItem _ _ _ lastPrintable =>
    simp only [List.forall_mem_append] at genuine
    exact List.forall_mem_singleton.2 (lastPrintable genuine.1.1)
  | moreItems _ _ _ _ _ firstPrintable othersPrintable =>
    simp only [List.forall_mem_append, List.forall_mem_cons] at genuine
    exact List.forall_mem_cons.2 ⟨firstPrintable genuine.1.1, othersPrintable genuine.2.2.2⟩
  | block _ _ _ _ statementsPrintable =>
    simp only [List.forall_mem_append, List.forall_mem_cons] at genuine
    exact statementsPrintable genuine.2.1.2
  | bodyStatement _ _ statementPrintable =>
    rw [List.forall_mem_cons] at genuine
    exact List.forall_mem_singleton.2 (statementPrintable genuine.2)
  | moreStatements _ _ _ firstPrintable othersPrintable =>
    simp only [List.forall_mem_append] at genuine
    exact List.forall_mem_cons.2 ⟨firstPrintable genuine.1.1, othersPrintable genuine.2⟩
  | ended _ _ statementPrintable =>
    rw [List.forall_mem_append] at genuine
    exact statementPrintable genuine.1
  | whileLoop _ _ _ testPrintable bodyPrintable =>
    simp only [List.forall_mem_append, List.forall_mem_cons] at genuine
    exact ⟨testPrintable genuine.2.1, (Stmt.allPrintable_iff _).2 (bodyPrintable genuine.2.2)⟩
  | forLoop _ _ _ _ _ _ _ startPrintable testPrintable updatePrintable bodyPrintable =>
    simp only [List.forall_mem_append, List.forall_mem_cons] at genuine
    exact ⟨startPrintable genuine.2.1, testPrintable genuine.2.2.2.1,
      updatePrintable genuine.2.2.2.2.2.1,
      (Stmt.allPrintable_iff _).2 (bodyPrintable genuine.2.2.2.2.2.2)⟩
  | returnValue _ _ valuePrintable =>
    rw [List.forall_mem_cons] at genuine
    exact valuePrintable genuine.2
  | returnNothing => trivial
  | debugList _ _ _ valuesPrintable =>
    simp only [List.forall_mem_cons] at genuine
    exact (Expr.allPrintable_iff _).2 (valuesPrintable genuine.2.2)
  | debugValue _ _ _ valuePrintable =>
    rw [List.forall_mem_cons] at genuine
    exact ⟨valuePrintable genuine.2, trivial⟩
  | use => trivial
  | exported _ _ _ functionPrintable =>
    rw [List.forall_mem_cons] at genuine
    exact functionPrintable genuine.2 _
  | expressionStatement _ valuePrintable => exact printable_expr (valuePrintable genuine) _
  | ifElse _ _ _ _ _ _ testPrintable consequentPrintable alternatePrintable =>
    simp only [List.forall_mem_append, List.forall_mem_cons] at genuine
    exact ⟨testPrintable genuine.2.1.1.1,
      (Stmt.allPrintable_iff _).2 (consequentPrintable genuine.2.1.1.2),
      (Stmt.allPrintable_iff _).2 (alternatePrintable genuine.2.2.2)⟩
  | ifOnly _ _ _ _ testPrintable consequentPrintable =>
    simp only [List.forall_mem_append, List.forall_mem_cons] at genuine
    exact ⟨testPrintable genuine.2.1,
      (Stmt.allPrintable_iff _).2 (consequentPrintable genuine.2.2), trivial⟩
  | elseIf _ branchPrintable => exact List.forall_mem_singleton.2 (branchPrintable genuine)
  | elseColon _ _ statementPrintable =>
    rw [List.forall_mem_cons] at genuine
    exact List.forall_mem_singleton.2 (statementPrintable genuine.2)
  | elseStatement _ _ _ statementPrintable =>
    exact List.forall_mem_singleton.2 (statementPrintable genuine)
  | program _ _ statementsPrintable =>
    rw [List.forall_mem_append] at genuine
    exact statementsPrintable genuine.2
  | unassigned _ _ printable | unchosen _ _ printable | operand _ printable
  | chain _ _ printable | unstepped _ _ printable | suffixed _ _ printable
  | subject _ printable | lambda _ printable | functionBlock _ printable
  | unlistedParameters _ _ printable | value _ printable | bodyBlock _ printable
  | unended _ _ printable | branchStatement _ printable | elseBlock _ printable =>
    exact printable genuine

end Grammar

/-! ## Printable at any place -/

variable {change : Position → Position}

/-- Only a call becomes a call by moving positions. -/
theorem Expr.eq_call_of_relabel
    {value callee : Expr}
    {position : Position}
    {arguments : List Expr}
    (same : value.relabel change = .call position callee arguments) :
    ∃ origin originCallee originArguments, value = .call origin originCallee originArguments ∧
      originCallee.relabel change = callee ∧
      originArguments.map (Expr.relabel change) = arguments := by
  cases value with
  | call origin originCallee originArguments =>
    rw [Expr.relabel, Expr.relabelAll_eq_map, Expr.call.injEq] at same
    exact ⟨_, _, _, rfl, same.2⟩
  | _ => cases same

/-- Only a function becomes a function by moving positions. -/
theorem Expr.eq_function_of_relabel
    {value : Expr}
    {position : Position}
    {name : Option String}
    {exported : Bool}
    {parameters : List Parameter}
    {body : List Stmt}
    (same : value.relabel change = .function position name exported parameters body) :
    ∃ origin originParameters originBody,
      value = .function origin name exported originParameters originBody ∧
      originParameters.map (Parameter.relabel change) = parameters ∧
      originBody.map (Stmt.relabel change) = body := by
  cases value with
  | function origin originName originExported originParameters originBody =>
    rw [Expr.relabel, Parameter.relabelAll_eq_map, Stmt.relabelAll_eq_map,
      Expr.function.injEq] at same
    obtain ⟨-, rfl, rfl, parametersSame, bodySame⟩ := same
    exact ⟨_, _, _, rfl, parametersSame, bodySame⟩
  | _ => cases same

/-- Only a return becomes a return by moving positions. -/
theorem Stmt.eq_returnValue_of_relabel
    {statement : Stmt}
    {position : Position}
    {value : Expr}
    (same : statement.relabel change = .returnValue position value) :
    ∃ origin originValue, statement = .returnValue origin originValue ∧
      originValue.relabel change = value := by
  cases statement with
  | returnValue origin originValue =>
    rw [Stmt.relabel, Stmt.returnValue.injEq] at same
    exact ⟨_, _, rfl, same.2⟩
  | _ => cases same

/-- Positions do not decide whether a node is printable. -/
theorem inherited_printable
    (change : Position → Position) :
    Inherited
      (fun value => (value.relabel change).Printable → value.Printable)
      (fun field => (field.relabel change).Printable → field.Printable)
      (fun parameter => (parameter.relabel change).Printable → parameter.Printable)
      (fun statement => (statement.relabel change).Printable → statement.Printable) where
  number _ _ printable := printable
  text _ _ _ := trivial
  bool _ _ _ := trivial
  undefined _ _ := trivial
  null _ printable := printable
  name _ _ printable := printable
  array _ items each printable := by
    rw [Expr.relabel, Expr.Printable, Expr.relabelAll_eq_map, Expr.allPrintable_iff,
      List.forall_mem_map] at printable
    exact (Expr.allPrintable_iff items).2 fun item mem => each item mem (printable item mem)
  object _ fields each printable := by
    rw [Expr.relabel, Expr.Printable, Field.relabelAll_eq_map, Field.allPrintable_iff,
      List.forall_mem_map] at printable
    exact (Field.allPrintable_iff fields).2 fun field mem => each field mem (printable field mem)
  binary _ _ _ _ ofLeft ofRight printable := ⟨ofLeft printable.1, ofRight printable.2⟩
  logical _ _ _ _ ofLeft ofRight printable := ⟨ofLeft printable.1, ofRight printable.2⟩
  unary _ _ _ ofOperand printable := ofOperand printable
  step _ _ _ _ ofOperand printable := ofOperand printable
  assign _ _ _ ofTarget ofValue printable := ⟨ofTarget printable.1, ofValue printable.2⟩
  declare _ _ _ _ ofValue printable := ⟨printable.1, ofValue printable.2⟩
  call _ _ arguments ofCallee each printable := by
    rw [Expr.relabel, Expr.Printable, Expr.relabelAll_eq_map, Expr.allPrintable_iff,
      List.forall_mem_map] at printable
    refine ⟨ofCallee printable.1, (Expr.allPrintable_iff arguments).2 ?_⟩
    exact fun argument mem => each argument mem (printable.2 argument mem)
  member _ _ _ ofSubject printable := ⟨ofSubject printable.1, printable.2⟩
  index _ _ _ ofSubject ofKey printable := ⟨ofSubject printable.1, ofKey printable.2⟩
  ternary _ _ _ _ ofTest ofConsequent ofAlternate printable :=
    ⟨ofTest printable.1, ofConsequent printable.2.1, ofAlternate printable.2.2⟩
  typeof _ _ ofOperand printable := ofOperand printable
  function _ _ _ parameters body eachParameter eachStatement printable := by
    rw [Expr.relabel, Expr.Printable, Parameter.relabelAll_eq_map, Parameter.allPrintable_iff,
      List.forall_mem_map, Stmt.relabelAll_eq_map, Stmt.allPrintable_iff, List.forall_mem_map]
      at printable
    refine ⟨printable.1, printable.2.1, (Parameter.allPrintable_iff parameters).2 ?_,
      (Stmt.allPrintable_iff body).2 ?_⟩
    · exact fun parameter mem => eachParameter parameter mem (printable.2.2.1 parameter mem)
    · exact fun statement mem => eachStatement statement mem (printable.2.2.2 statement mem)
  field _ value ofValue printable := by
    cases value with
    | name => exact printable
    | _ => exact ofValue printable
  required _ printable := printable
  optional _ _ ofDefault printable := ⟨printable.1, ofDefault printable.2⟩
  expr position value ofValue ofResult ofParts printable := by
    rcases Stmt.expr_cases (change position) (value.relabel change) with
      ⟨_, _, _, _, same⟩ | ⟨_, _, _, _, same⟩ | ⟨_, same⟩
    · obtain ⟨_, callee, arguments, rfl, calleeSame, noArguments⟩ := Expr.eq_call_of_relabel same
      obtain ⟨_, parameters, body, rfl, noParameters, bodySame⟩ :=
        Expr.eq_function_of_relabel calleeSame
      obtain rfl := List.map_eq_nil_iff.1 noArguments
      obtain rfl := List.map_eq_nil_iff.1 noParameters
      obtain ⟨last, rfl, lastSame⟩ := List.map_eq_singleton_iff.1 bodySame
      obtain ⟨_, result, rfl, rfl⟩ := Stmt.eq_returnValue_of_relabel lastSame
      exact ofResult _ _ _ result rfl printable
    · obtain ⟨_, parameters, body, rfl, _⟩ := Expr.eq_function_of_relabel same
      obtain ⟨eachParameter, eachStatement⟩ := ofParts _ _ parameters body rfl
      rw [Stmt.relabel, Expr.relabel, Stmt.Printable, Parameter.relabelAll_eq_map,
        Parameter.allPrintable_iff, List.forall_mem_map, Stmt.relabelAll_eq_map,
        Stmt.allPrintable_iff, List.forall_mem_map] at printable
      refine ⟨printable.1, (Parameter.allPrintable_iff parameters).2 ?_,
        (Stmt.allPrintable_iff body).2 ?_⟩
      · exact fun parameter mem => eachParameter parameter mem (printable.2.1 parameter mem)
      · exact fun statement mem => eachStatement statement mem (printable.2.2 statement mem)
    · exact Grammar.printable_expr (ofValue (same.1 printable)) position
  branch _ _ consequent alternate ofTest eachConsequent eachAlternate printable := by
    rw [Stmt.relabel, Stmt.Printable, Stmt.relabelAll_eq_map, Stmt.relabelAll_eq_map,
      Stmt.allPrintable_iff, Stmt.allPrintable_iff, List.forall_mem_map, List.forall_mem_map]
      at printable
    refine ⟨ofTest printable.1, (Stmt.allPrintable_iff consequent).2 ?_,
      (Stmt.allPrintable_iff alternate).2 ?_⟩
    · exact fun statement mem => eachConsequent statement mem (printable.2.1 statement mem)
    · exact fun statement mem => eachAlternate statement mem (printable.2.2 statement mem)
  whileLoop _ _ body ofTest each printable := by
    rw [Stmt.relabel, Stmt.Printable, Stmt.relabelAll_eq_map, Stmt.allPrintable_iff,
      List.forall_mem_map] at printable
    refine ⟨ofTest printable.1, (Stmt.allPrintable_iff body).2 ?_⟩
    exact fun statement mem => each statement mem (printable.2 statement mem)
  forLoop _ _ _ _ body ofStart ofTest ofUpdate each printable := by
    rw [Stmt.relabel, Stmt.Printable, Stmt.relabelAll_eq_map, Stmt.allPrintable_iff,
      List.forall_mem_map] at printable
    refine ⟨ofStart printable.1, ofTest printable.2.1, ofUpdate printable.2.2.1,
      (Stmt.allPrintable_iff body).2 ?_⟩
    exact fun statement mem => each statement mem (printable.2.2.2 statement mem)
  returnValue _ _ ofValue printable := ofValue printable
  returnNothing _ _ := trivial
  debug _ values each printable := by
    rw [Stmt.relabel, Stmt.Printable, Expr.relabelAll_eq_map, Expr.allPrintable_iff,
      List.forall_mem_map] at printable
    exact (Expr.allPrintable_iff values).2 fun value mem => each value mem (printable value mem)
  use _ _ _ := trivial

/-- A program is printable if it is without its positions. -/
theorem Program.printable_of_erase
    {program : Program}
    (printable : program.erase.Printable) :
    program.Printable := by
  rw [Program.erase, Program.Printable, Stmt.allPrintable_iff, List.forall_mem_map] at printable
  refine (Stmt.allPrintable_iff program).2 fun statement mem => ?_
  exact (inherited_printable fun _ => .start).stmt_all statement (printable statement mem)

end TinyScript
