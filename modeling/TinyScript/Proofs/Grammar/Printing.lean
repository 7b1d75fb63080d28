import TinyScript.Proofs.Grammar.Completeness
import TinyScript.Proofs.Grammar.Legible
import TinyScript.Proofs.Syntax.Induction

/-!
# Printed programs are read back

The tokens of a printable program, wherever they are placed, are read as that
program up to positions.  The proof is one induction on the syntax, with a lemma
for each form.
-/

namespace TinyScript
namespace Grammar

open Token

/-! ## Properties and parameters -/

/-- The key of a property is a name or a text. -/
theorem spells_property
    {key : Token}
    (isKey : key.kind = .identifier ∨ key.kind = .string)
    {tokens : List Token}
    {value : Expr}
    (spells : SpellsValue tokens value) :
    Spells (.item .field) (key :: ofMark .colon :: tokens) (.mk key.lexeme value)
      (EndsItem .closeBrace) := by
  have valueSpells : Spells (.expression .assignment) tokens value (EndsItem .closeBrace) :=
    spells.mono fun _ ends => follows_of_endsValue (ends.endsValue rfl) .assignment
  have field : Spells (.item .field) (key :: ([] ++ ofMark .colon :: ([] ++ tokens)))
      (.mk key.lexeme value) (EndsItem .closeBrace) :=
    valueSpells.field isKey Newlines.nil rfl Newlines.nil
  exact field

/-- A property is spelled by its key, a colon and its value. -/
theorem spells_pair
    (key : String)
    {value : Expr}
    (legible : Legible value) :
    Spells (.item .field) (ofString key :: ofMark .colon :: value.tokens) (.mk key value)
      (EndsItem .closeBrace) :=
  spells_property (.inr rfl) legible.spellsValue

/-- A key alone spells a property with the value that the name has. -/
theorem spells_shorthand
    (key : String)
    (position : Position) :
    Spells (.item .field) [ofString key] (.mk key (.name position key))
      (EndsItem .closeBrace) :=
  spells_key (.inr rfl) Newlines.nil fun _ ends => ends

/-- A name spells a parameter without a default. -/
theorem spells_required
    {name : String}
    (isName : IsName name) :
    Spells (.item .parameter) [ofWord name] (.required name) (EndsItem .closeParen) := by
  refine spells_requiredParameter isName.2 fun next ends => ?_
  rcases ends with ends | ends <;> simp [ends]

/-- A name and an expression behind an equals sign spell a parameter with a default. -/
theorem spells_optional
    {name : String}
    {default : Expr}
    (isName : IsName name)
    (legible : Legible default) :
    Spells (.item .parameter)
      (ofWord name :: ofOperator Sign.assign.spelling :: placed .ternary default default.tokens)
      (.optional name default) (EndsItem .closeParen) := by
  refine .optionalParameter isName.2 rfl ?_
  exact (legible.expression .ternary).mono fun _ ends =>
    follows_of_endsValue (ends.endsValue rfl) .ternary

/-! ## Statements -/

/-- What stands behind a statement without its semicolon. -/
def EndsStatement (next : List Token) : Prop :=
  kindAhead next = .mark .semicolon

/-- A value that a statement ends with. -/
theorem Legible.lastValue
    {value : Expr}
    (legible : Legible value) :
    Spells (.expression .assignment) value.tokens value EndsStatement := by
  refine legible.spellsValue.mono fun next ends => follows_of_endsValue ?_ .assignment
  rw [show kindAhead next = .mark .semicolon from ends]
  rfl

section Statements

variable (position : Position)

/-- A legible expression spells a statement. -/
theorem spells_expression
    {value : Expr}
    (legible : Legible value) :
    Spells .bareStatement value.tokens (.expr position value) EndsStatement :=
  legible.lastValue.expressionStatement

/-- The word for exports and a function spell the exported function. -/
theorem spells_exported_function
    {name : Option String}
    {parameters : List Parameter}
    {body : List Stmt}
    (isName : ∀ word ∈ name, IsName word)
    (each : ∀ parameter ∈ parameters,
      Spells (.item .parameter) parameter.tokens parameter (EndsItem .closeParen))
    (bodySpells : Spells .statements (Stmt.tokensOfAll body) body EndsStatements)
    (inner : Position) :
    Spells .bareStatement
      (ofWord Keyword.outWord.spelling ::
        functionTokens name (Parameter.tokensOfAll parameters) (Stmt.tokensOfAll body))
      (.expr position (.function inner name true parameters body)) EndsStatement := by
  rw [Parameter.tokensOfAll_eq_map]
  exact .exported rfl rfl (spells_function isName each bodySpells true inner)

/-- The word for exports and a short function without parameters spell a call of it on the spot. -/
theorem spells_exported_call
    {value : Expr}
    (legible : Legible value)
    (callPosition functionPosition returnPosition : Position) :
    Spells .bareStatement
      (ofWord Keyword.outWord.spelling :: ofWord Keyword.fnWord.spelling :: ofMark .colon ::
        ofMark .colon :: value.tokens)
      (.expr position
        (.call callPosition
          (.function functionPosition none true [] [.returnValue returnPosition value]) []))
      EndsStatement :=
  .exported rfl rfl (.calledOnTheSpot (.inl rfl) rfl rfl legible.lastValue)

/-- A test and a body spell a branch without an alternative. -/
theorem spells_ifOnly
    {test : Expr}
    {consequent : List Stmt}
    (testLegible : Legible test)
    (bodySpells : Spells .statements (Stmt.tokensOfAll consequent) consequent EndsStatements) :
    Spells .bareStatement
      (ofWord Keyword.ifWord.spelling :: (test.tokens ++ braced (Stmt.tokensOfAll consequent)))
      (.branch position test consequent []) EndsStatement := by
  refine .branchStatement (.ifOnly rfl (testLegible.spellsValue.beforeMark rfl)
    (spells_block bodySpells).bodyBlock fun next ends => ?_)
  cases next with
  | nil => cases ends
  | cons semicolon next =>
    have kind : semicolon.kind = .mark .semicolon := ends
    simp [kind]

/-- A test and two bodies spell a branch with an alternative. -/
theorem spells_ifElse
    {test : Expr}
    {consequent alternate : List Stmt}
    (testLegible : Legible test)
    (bodySpells : Spells .statements (Stmt.tokensOfAll consequent) consequent EndsStatements)
    (alternateSpells : Spells .statements (Stmt.tokensOfAll alternate) alternate EndsStatements) :
    Spells .bareStatement
      (ofWord Keyword.ifWord.spelling :: (test.tokens ++ (braced (Stmt.tokensOfAll consequent) ++
        ofWord Keyword.elseWord.spelling :: braced (Stmt.tokensOfAll alternate))))
      (.branch position test consequent alternate) EndsStatement := by
  have branch : Spells .branch
      (ofWord Keyword.ifWord.spelling :: (test.tokens ++ braced (Stmt.tokensOfAll consequent) ++
        [] ++ ofWord Keyword.elseWord.spelling :: braced (Stmt.tokensOfAll alternate)))
      (.branch position test consequent alternate) EndsStatement :=
    .ifElse rfl (testLegible.spellsValue.beforeMark rfl) (spells_block bodySpells).bodyBlock
      Newlines.nil rfl (spells_block alternateSpells).elseBlock
  rw [List.append_nil, List.append_assoc] at branch
  exact branch.branchStatement

/-- A test and a body spell a loop. -/
theorem spells_whileLoop
    {test : Expr}
    {body : List Stmt}
    (testLegible : Legible test)
    (bodySpells : Spells .statements (Stmt.tokensOfAll body) body EndsStatements) :
    Spells .bareStatement (Stmt.whileLoop position test body).tokens
      (.whileLoop position test body) EndsStatement :=
  .whileLoop rfl (testLegible.spellsValue.beforeMark rfl) (spells_block bodySpells).bodyBlock

/-- A start, a test, an update and a body spell a loop. -/
theorem spells_forLoop
    {start test update : Expr}
    {body : List Stmt}
    (startLegible : Legible start)
    (testLegible : Legible test)
    (updateLegible : Legible update)
    (bodySpells : Spells .statements (Stmt.tokensOfAll body) body EndsStatements) :
    Spells .bareStatement (Stmt.forLoop position start test update body).tokens
      (.forLoop position start test update body) EndsStatement :=
  .forLoop rfl (startLegible.spellsValue.beforeMark rfl) rfl
    (testLegible.spellsValue.beforeMark rfl) rfl (updateLegible.spellsValue.beforeMark rfl)
    (spells_block bodySpells)

/-- Legible values spell a `debug` statement. -/
theorem spells_debug
    {values : List Expr}
    (each : ∀ value ∈ values, Legible value) :
    Spells .bareStatement (Stmt.debug position values).tokens (.debug position values)
      EndsStatement := by
  rw [Stmt.tokens, Expr.tokensOfAll_eq_map]
  exact .debugList rfl rfl <| spells_list .value Expr.tokens
    fun item mem => spells_value rfl (each item mem).spellsValue

end Statements

/-! ## Whole programs -/

/-- Statements are spelled if each of them is. -/
theorem spells_statements
    {statements : List Stmt}
    (each : ∀ statement ∈ statements,
      Spells .bareStatement statement.tokens statement EndsStatement) :
    Spells .statements (Stmt.tokensOfAll statements) statements EndsStatements := by
  induction statements with
  | nil => exact spells_noStatements fun _ ends => ends
  | cons statement statements ih =>
    rw [List.forall_mem_cons] at each
    have ended : Spells .statement (statement.tokens ++ [ofMark .semicolon]) statement
        (Before ([] ++ Stmt.tokensOfAll statements) EndsStatements) :=
      .ended (each.1.before fun _ _ same => kind_of_erase same) rfl
    have more : Spells .statements
        (statement.tokens ++ [ofMark .semicolon] ++ [] ++ Stmt.tokensOfAll statements)
        (statement :: statements) EndsStatements :=
      .moreStatements ended Separators.nil (ih each.2)
    rwa [List.append_nil, List.append_assoc] at more

/-- Every node is read from its tokens if its parts are, as long as it is printable. -/
theorem inherited_spelling :
    Inherited
      (fun value => value.Printable → Legible value)
      (fun field => field.Printable →
        Spells (.item .field) field.tokens field (EndsItem .closeBrace))
      (fun parameter => parameter.Printable →
        Spells (.item .parameter) parameter.tokens parameter (EndsItem .closeParen))
      (fun statement => statement.Printable →
        Spells .bareStatement statement.tokens statement EndsStatement) where
  number position value printable := legible_number position printable
  text position text _ := legible_text position text
  bool position value _ := legible_bool position value
  undefined position _ := legible_undefined position
  null position printable := printable.elim
  name position name printable := legible_name position printable
  array position items each printable :=
    legible_array position fun item mem =>
      each item mem ((Expr.allPrintable_iff items).1 printable item mem)
  object position fields each printable :=
    legible_object position fun field mem =>
      each field mem ((Field.allPrintable_iff fields).1 printable field mem)
  binary position op left right ofLeft ofRight printable :=
    legible_binary position op (ofLeft printable.1) (ofRight printable.2)
  logical position op left right ofLeft ofRight printable :=
    legible_logical position op (ofLeft printable.1) (ofRight printable.2)
  unary position op operand ofOperand printable := legible_unary position op (ofOperand printable)
  step position side op operand ofOperand printable := by
    cases side with
    | before => exact legible_step_before position op (ofOperand printable)
    | behind => exact legible_step_behind position op (ofOperand printable)
  assign position target value ofTarget ofValue printable :=
    legible_assign position (ofTarget printable.1) (ofValue printable.2)
  declare position flavour name value ofValue printable :=
    legible_declare position printable.1 flavour (ofValue printable.2)
  call position callee arguments ofCallee each printable :=
    legible_call position (ofCallee printable.1) fun argument mem =>
      each argument mem ((Expr.allPrintable_iff arguments).1 printable.2 argument mem)
  member position subject key ofSubject printable :=
    legible_member position (ofSubject printable.1) key
  index position subject key ofSubject ofKey printable :=
    legible_index position (ofSubject printable.1) (ofKey printable.2)
  ternary position test consequent alternate ofTest ofConsequent ofAlternate printable :=
    legible_ternary position (ofTest printable.1) (ofConsequent printable.2.1)
      (ofAlternate printable.2.2)
  typeof position operand ofOperand printable := legible_typeof position (ofOperand printable)
  function position name exported parameters body eachParameter eachStatement printable := by
    obtain ⟨isName, notExported, parametersPrintable, bodyPrintable⟩ := printable
    rw [Parameter.allPrintable_iff] at parametersPrintable
    rw [Stmt.allPrintable_iff] at bodyPrintable
    rw [notExported]
    refine legible_function position isName ?_ (spells_statements ?_)
    · exact fun parameter mem => eachParameter parameter mem (parametersPrintable parameter mem)
    · exact fun statement mem => eachStatement statement mem (bodyPrintable statement mem)
  field key value ofValue printable := by
    cases value with
    | name position name =>
      rw [Field.tokens]
      split
      case isTrue same =>
        rw [same]
        exact spells_shorthand key position
      case isFalse other => exact spells_pair key (ofValue (printable.resolve_left other))
    | _ => exact spells_pair key (ofValue printable)
  required name printable := spells_required printable
  optional name default ofDefault printable := spells_optional printable.1 (ofDefault printable.2)
  expr position value ofValue ofResult ofParts printable := by
    rcases Stmt.expr_cases position value with
      ⟨_, _, _, result, rfl⟩ | ⟨_, name, parameters, body, rfl⟩ | ⟨tokensSame, printableSame⟩
    · exact spells_exported_call position (ofResult _ _ _ result rfl printable) _ _ _
    · obtain ⟨eachParameter, eachStatement⟩ := ofParts _ name parameters body rfl
      obtain ⟨isName, parametersPrintable, bodyPrintable⟩ := printable
      rw [Parameter.allPrintable_iff] at parametersPrintable
      rw [Stmt.allPrintable_iff] at bodyPrintable
      refine spells_exported_function position isName ?_ (spells_statements ?_) _
      · exact fun parameter mem => eachParameter parameter mem (parametersPrintable parameter mem)
      · exact fun statement mem => eachStatement statement mem (bodyPrintable statement mem)
    · rw [tokensSame]
      exact spells_expression position (ofValue (printableSame.1 printable))
  branch position test consequent alternate ofTest eachConsequent eachAlternate printable := by
    obtain ⟨testPrintable, consequentPrintable, alternatePrintable⟩ := printable
    rw [Stmt.allPrintable_iff] at consequentPrintable alternatePrintable
    have consequentSpelled := spells_statements fun statement mem =>
      eachConsequent statement mem (consequentPrintable statement mem)
    have alternateSpelled := spells_statements fun statement mem =>
      eachAlternate statement mem (alternatePrintable statement mem)
    rw [Stmt.tokens]
    cases alternate with
    | nil =>
      rw [List.isEmpty_nil, if_pos rfl, List.append_nil]
      exact spells_ifOnly position (ofTest testPrintable) consequentSpelled
    | cons first others =>
      rw [List.isEmpty_cons, if_neg Bool.false_ne_true]
      exact spells_ifElse position (ofTest testPrintable) consequentSpelled alternateSpelled
  whileLoop position test body ofTest each printable :=
    spells_whileLoop position (ofTest printable.1) <| spells_statements fun statement mem =>
      each statement mem ((Stmt.allPrintable_iff body).1 printable.2 statement mem)
  forLoop position start test update body ofStart ofTest ofUpdate each printable :=
    spells_forLoop position (ofStart printable.1) (ofTest printable.2.1) (ofUpdate printable.2.2.1)
      <| spells_statements fun statement mem =>
        each statement mem ((Stmt.allPrintable_iff body).1 printable.2.2.2 statement mem)
  returnValue position value ofValue printable := (ofValue printable).lastValue.returnValue rfl
  returnNothing position _ := spells_returnNothing rfl fun _ ends => .inr (.inl ends)
  debug position values each printable :=
    spells_debug position fun value mem =>
      each value mem ((Expr.allPrintable_iff values).1 printable value mem)
  use position path _ := spells_use rfl rfl

/-- The tokens of a printable program, wherever they are placed, are read as that program. -/
theorem ofTokens_of_tokens
    {program : Program}
    (printable : program.Printable)
    {tokens : List Token}
    (same : (Program.tokensAhead tokens).map Token.erase = program.tokens) :
    ∃ parsed : Program, Program.ofTokens tokens = .ok parsed ∧ parsed.erase = program.erase := by
  have spells := spells_statements fun statement mem =>
    inherited_spelling.stmt_all statement
      ((Stmt.allPrintable_iff program).1 printable statement mem)
  obtain ⟨parsed, derives, erased⟩ :=
    spells (Program.tokensAhead tokens) [] same (.inr rfl)
  exact ⟨parsed, ofTokens_of_derives (.program Separators.nil derives), erased⟩

end Grammar
end TinyScript
