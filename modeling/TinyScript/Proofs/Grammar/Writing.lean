import TinyScript.Proofs.Grammar.Image
import TinyScript.Proofs.Grammar.Printing

/-!
# Writing tokens as text

Tokens are written as text with a blank behind each, and the text is scanned back
to them.  So for every printable program there is a source that is read as it.
-/

namespace TinyScript
namespace Token

/-! ## One token -/

/-- A text as the body of a string literal. -/
def escape (text : List Char) : List Char :=
  text.flatMap fun c => if c = '"' ∨ c = '\\' then ['\\', c] else [c]

/-- The slice of a source that a token is written as. -/
def slice (token : Token) : List Char :=
  if token.kind = .string then '"' :: (escape token.lexeme.toList ++ ['"'])
  else token.lexeme.toList

/-- A token without a place that is spelled as its slice in front of a blank. -/
structure Writable (token : Token) : Prop where
  placeless : token.erase = token
  spelled : ∀ beyond, Spelled token.kind token.lexeme token.slice (' ' :: beyond)

theorem quoted_escape
    (text : List Char) :
    Quoted '"' (escape text) text := by
  induction text with
  | nil => exact .nil
  | cons c text ih =>
    rw [escape, List.flatMap_cons]
    split
    case isTrue special =>
      have plain : Scanner.unescape c = c := by rcases special with rfl | rfl <;> rfl
      have quoted := Quoted.escaped c ih
      rw [plain] at quoted
      exact quoted
    case isFalse plain =>
      rw [not_or] at plain
      exact .plain plain.2 plain.1 ih

theorem writable_ofString
    (text : String) :
    (ofString text).Writable := by
  refine ⟨rfl, fun beyond => ?_⟩
  have spelled := Spelled.string (' ' :: beyond) (.inl rfl) (quoted_escape text.toList)
  rw [String.ofList_toList] at spelled
  exact spelled

theorem writable_ofMark
    (mark : Mark) :
    (ofMark mark).Writable := by
  refine ⟨rfl, fun beyond => ?_⟩
  have spelled := Spelled.mark mark (' ' :: beyond)
  have same : (ofMark mark).slice = [mark.spelling] := by
    simp [slice, ofMark]
  rw [same]
  exact spelled

theorem slice_of_ne
    {token : Token}
    (notString : token.kind ≠ .string) :
    token.slice = token.lexeme.toList :=
  if_neg notString

/-- A blank ends a word. -/
theorem isWord_append_blank
    (word : List Char) :
    Text.isWord (word ++ [' ']) = false := by
  have blank : Text.continuesWord ' ' = false := by rfl
  cases word with
  | nil => rfl
  | cons c rest => simp [Text.isWord, blank]

/-- A blank ends a numeral. -/
theorem isNumeral_append_blank
    (digits : List Char) :
    isNumeral (digits ++ [' ']) = false := by
  cases digits with
  | nil => decide
  | cons c rest => simp [isNumeral]

theorem writable_ofWord
    {word : String}
    (isWord : Text.isWord word.toList = true) :
    (ofWord word).Writable := by
  refine ⟨rfl, fun beyond => ?_⟩
  have ends : ∀ c ∈ (' ' :: beyond).head?, Text.isWord (word.toList ++ [c]) = false := by
    intro c mem
    rw [← Option.mem_some.1 mem]
    exact isWord_append_blank word.toList
  have spelled := Spelled.word isWord ends
  rw [String.ofList_toList] at spelled
  rw [slice_of_ne]
  · exact spelled
  · rcases wordKind_cases word with same | ⟨_, same⟩ <;> simp [ofWord, same]

theorem writable_ofNumeral
    {digits : List Char}
    (numeral : isNumeral digits = true) :
    (ofNumeral digits).Writable := by
  refine ⟨rfl, fun beyond => ?_⟩
  have ends : ∀ c ∈ (' ' :: beyond).head?, isNumeral (digits ++ [c]) = false := by
    intro c mem
    rw [← Option.mem_some.1 mem]
    exact isNumeral_append_blank digits
  have spelled := Spelled.number numeral ends
  rw [slice_of_ne, ofNumeral, String.toList_ofList]
  · exact spelled
  · rcases numberKind_cases digits with same | same <;> simp [ofNumeral, same]

/-- An operator that is taken off a run, or one whose run goes on to its end. -/
def isOperator (text : List Char) : Bool :=
  Scanner.pairs.contains text ||
    (!text.isEmpty && text.all Scanner.isOperatorChar &&
      !Scanner.pairs.any (·.isPrefixOf text))

theorem writable_ofOperator
    {text : String}
    (operator : isOperator text.toList = true) :
    (ofOperator text).Writable := by
  refine ⟨rfl, fun beyond => ?_⟩
  have spelled : Spelled (Scanner.operatorKind text) text text.toList (' ' :: beyond) := by
    simp only [isOperator, Bool.or_eq_true, Bool.and_eq_true, Bool.not_eq_true',
      List.contains_iff_mem, List.isEmpty_eq_false_iff, List.all_eq_true, List.any_eq_false,
      List.isPrefixOf_iff_prefix] at operator
    rcases operator with mem | ⟨⟨nonempty, signs⟩, noPair⟩
    · have spelled := Spelled.pair (' ' :: beyond) mem
      rwa [String.ofList_toList] at spelled
    · have ends : ∀ c ∈ (' ' :: beyond).head?, Scanner.isOperatorChar c = false := by
        intro c mem
        rw [← Option.mem_some.1 mem]
        rfl
      have spelled := Spelled.run nonempty signs noPair ends
      rwa [String.ofList_toList] at spelled
  rw [slice_of_ne]
  · exact spelled
  · rcases operatorKind_cases text with ⟨_, same⟩ | same <;> simp [ofOperator, same]

theorem writable_keyword
    (word : Keyword) :
    (ofWord word.spelling).Writable := by
  refine writable_ofWord ?_
  cases word <;> rfl

theorem writable_sign
    (sign : Sign) :
    (ofOperator sign.spelling).Writable := by
  refine writable_ofOperator ?_
  cases sign <;> rfl

theorem writable_binary
    (op : BinaryOp) :
    (ofOperator op.spelling).Writable := by
  refine writable_ofOperator ?_
  rcases op with (_ | _ | _ | _ | _ | _) | _ | _ | (_ | _ | _ | _) <;> rfl

theorem writable_logical
    (op : LogicalOp) :
    (ofOperator op.spelling).Writable := by
  refine writable_ofOperator ?_
  cases op <;> rfl

theorem writable_unary
    (op : UnaryOp) :
    (ofOperator op.spelling).Writable := by
  refine writable_ofOperator ?_
  cases op <;> rfl

theorem writable_step
    (op : StepOp) :
    (ofOperator op.symbol).Writable := by
  refine writable_ofOperator ?_
  cases op <;> rfl

theorem writable_flavour
    (flavour : Flavour) :
    (ofWord flavour.spelling).Writable := by
  refine writable_ofWord ?_
  cases flavour <;> rfl

/-! ## Runs of tokens -/

/-- Tokens that can be written one behind the other. -/
def AllWritable (tokens : List Token) : Prop :=
  ∀ token ∈ tokens, token.Writable

theorem allWritable_nil :
    AllWritable [] :=
  fun _ mem => absurd mem List.not_mem_nil

theorem allWritable_cons
    {token : Token}
    {tokens : List Token} :
    AllWritable (token :: tokens) ↔ token.Writable ∧ AllWritable tokens :=
  List.forall_mem_cons

theorem allWritable_append
    {tokens others : List Token} :
    AllWritable (tokens ++ others) ↔ AllWritable tokens ∧ AllWritable others :=
  List.forall_mem_append

theorem AllWritable.append
    {tokens others : List Token}
    (writable : AllWritable tokens)
    (othersWritable : AllWritable others) :
    AllWritable (tokens ++ others) :=
  allWritable_append.2 ⟨writable, othersWritable⟩

theorem AllWritable.cons
    {token : Token}
    {tokens : List Token}
    (writable : token.Writable)
    (othersWritable : AllWritable tokens) :
    AllWritable (token :: tokens) :=
  allWritable_cons.2 ⟨writable, othersWritable⟩

theorem AllWritable.singleton
    {token : Token}
    (writable : token.Writable) :
    AllWritable [token] :=
  .cons writable allWritable_nil

theorem AllWritable.enclosed
    {tokens : List Token}
    (writable : AllWritable tokens)
    (opening closing : Mark) :
    AllWritable (enclosed opening closing tokens) :=
  .cons (writable_ofMark opening) (writable.append (.singleton (writable_ofMark closing)))

theorem AllWritable.placed
    {tokens : List Token}
    (writable : AllWritable tokens)
    (slot : Grammar.Level)
    (value : Expr) :
    AllWritable (placed slot value tokens) := by
  unfold TinyScript.placed
  split
  · exact writable.enclosed .openParen .closeParen
  · exact writable

theorem allWritable_separated
    {runs : List (List Token)}
    (writable : ∀ run ∈ runs, AllWritable run) :
    AllWritable (separated runs) := by
  match runs with
  | [] => exact allWritable_nil
  | [last] => exact writable last (List.mem_singleton_self _)
  | first :: second :: others =>
    rw [List.forall_mem_cons] at writable
    exact writable.1.append (.cons (writable_ofMark .comma) (allWritable_separated writable.2))

theorem allWritable_functionTokens
    {name : Option String}
    {parameters : List (List Token)}
    {body : List Token}
    (isName : ∀ word ∈ name, IsName word)
    (parametersWritable : ∀ run ∈ parameters, AllWritable run)
    (bodyWritable : AllWritable body) :
    AllWritable (functionTokens name parameters body) := by
  have nameWritable : AllWritable (name.toList.map ofWord) := by
    cases name with
    | none => exact allWritable_nil
    | some word => exact .singleton (writable_ofWord (isName word rfl).1)
  refine .cons (writable_keyword .fnWord) (nameWritable.append (.append ?_ ?_))
  · exact (allWritable_separated parametersWritable).enclosed .openParen .closeParen
  · exact bodyWritable.enclosed .openBrace .closeBrace

end Token

open Token

/-! ## Printable programs can be written -/

theorem allWritable_values
    {values : List Expr}
    (each : ∀ value ∈ values, value.Printable → AllWritable value.tokens)
    (printable : Expr.AllPrintable values) :
    AllWritable (separated (Expr.tokensOfAll values)) := by
  rw [Expr.tokensOfAll_eq_map]
  refine allWritable_separated (List.forall_mem_map.2 fun value mem => ?_)
  exact each value mem ((Expr.allPrintable_iff values).1 printable value mem)

theorem allWritable_fields
    {fields : List Field}
    (each : ∀ field ∈ fields, field.Printable → AllWritable field.tokens)
    (printable : Field.AllPrintable fields) :
    AllWritable (separated (Field.tokensOfAll fields)) := by
  rw [Field.tokensOfAll_eq_map]
  refine allWritable_separated (List.forall_mem_map.2 fun field mem => ?_)
  exact each field mem ((Field.allPrintable_iff fields).1 printable field mem)

theorem allWritable_statements
    {statements : List Stmt}
    (each : ∀ statement ∈ statements, statement.Printable → AllWritable statement.tokens)
    (printable : Stmt.AllPrintable statements) :
    AllWritable (Stmt.tokensOfAll statements) := by
  induction statements with
  | nil => exact allWritable_nil
  | cons statement statements ih =>
    rw [List.forall_mem_cons] at each
    exact (each.1 printable.1).append (.cons (writable_ofMark .semicolon) (ih each.2 printable.2))

theorem allWritable_function
    {name : Option String}
    {parameters : List Parameter}
    {body : List Stmt}
    (eachParameter : ∀ parameter ∈ parameters,
      parameter.Printable → AllWritable parameter.tokens)
    (eachStatement : ∀ statement ∈ body, statement.Printable → AllWritable statement.tokens)
    (isName : ∀ word ∈ name, IsName word)
    (parametersPrintable : Parameter.AllPrintable parameters)
    (bodyPrintable : Stmt.AllPrintable body) :
    AllWritable
      (functionTokens name (Parameter.tokensOfAll parameters) (Stmt.tokensOfAll body)) := by
  rw [Parameter.tokensOfAll_eq_map]
  refine allWritable_functionTokens isName (List.forall_mem_map.2 fun parameter mem => ?_)
    (allWritable_statements eachStatement bodyPrintable)
  exact eachParameter parameter mem
    ((Parameter.allPrintable_iff parameters).1 parametersPrintable parameter mem)

/-- The tokens of a node can be written if those of its parts can, as long as it is printable. -/
theorem inherited_writable :
    Inherited
      (fun value => value.Printable → AllWritable value.tokens)
      (fun field => field.Printable → AllWritable field.tokens)
      (fun parameter => parameter.Printable → AllWritable parameter.tokens)
      (fun statement => statement.Printable → AllWritable statement.tokens) where
  number _ _ printable := .singleton (writable_ofNumeral (isLiteral_literal printable).1)
  text _ text _ := .singleton (writable_ofString text)
  bool _ _ _ := .singleton (writable_keyword _)
  undefined _ _ := .singleton (writable_keyword .undefWord)
  null _ printable := printable.elim
  name _ _ printable := .singleton (writable_ofWord printable.1)
  array _ items each printable := (allWritable_values each printable).enclosed _ _
  object _ fields each printable := (allWritable_fields each printable).enclosed _ _
  binary _ op left right ofLeft ofRight printable :=
    ((ofLeft printable.1).placed _ left).append
      (.cons (writable_binary op) ((ofRight printable.2).placed _ right))
  logical _ op left right ofLeft ofRight printable :=
    ((ofLeft printable.1).placed _ left).append
      (.cons (writable_logical op) ((ofRight printable.2).placed _ right))
  unary _ op operand ofOperand printable :=
    .cons (writable_unary op) ((ofOperand printable).placed _ operand)
  step _ side op operand ofOperand printable := by
    cases side with
    | before => exact .cons (writable_step op) ((ofOperand printable).placed _ operand)
    | behind =>
      exact ((ofOperand printable).placed _ operand).append (.singleton (writable_step op))
  assign _ target _ ofTarget ofValue printable :=
    ((ofTarget printable.1).placed _ target).append
      (.cons (writable_sign .assign) (ofValue printable.2))
  declare _ flavour _ _ ofValue printable :=
    .cons (writable_ofWord printable.1.1) (.cons (writable_ofMark .colon)
      (.cons (writable_flavour flavour) (.cons (writable_sign .assign) (ofValue printable.2))))
  call _ callee _ ofCallee each printable :=
    ((ofCallee printable.1).placed _ callee).append
      ((allWritable_values each printable.2).enclosed _ _)
  member _ subject _ ofSubject printable :=
    ((ofSubject printable.1).placed _ subject).append
      (.cons (writable_ofMark .dot) (.singleton (writable_ofWord printable.2)))
  index _ subject _ ofSubject ofKey printable :=
    ((ofSubject printable.1).placed _ subject).append ((ofKey printable.2).enclosed _ _)
  ternary _ test consequent alternate ofTest ofConsequent ofAlternate printable :=
    ((ofTest printable.1).placed _ test).append (.cons (writable_ofMark .question)
      (((ofConsequent printable.2.1).placed _ consequent).append (.cons (writable_ofMark .colon)
        ((ofAlternate printable.2.2).placed _ alternate))))
  typeof _ operand ofOperand printable :=
    .cons (writable_keyword .typeofWord) ((ofOperand printable).placed _ operand)
  function _ _ _ parameters body eachParameter eachStatement printable :=
    allWritable_function eachParameter eachStatement printable.1 printable.2.2.1 printable.2.2.2
  field key value ofValue printable := by
    have pair (valueWritable : AllWritable value.tokens) :
        AllWritable (ofString key :: ofMark .colon :: value.tokens) :=
      .cons (writable_ofString key) (.cons (writable_ofMark .colon) valueWritable)
    cases value with
    | name position name =>
      rw [Field.tokens]
      split
      case isTrue => exact .singleton (writable_ofString key)
      case isFalse other => exact pair (ofValue (printable.resolve_left other))
    | _ => exact pair (ofValue printable)
  required _ printable := .singleton (writable_ofWord printable.1)
  optional _ default ofDefault printable :=
    .cons (writable_ofWord printable.1.1)
      (.cons (writable_sign .assign) ((ofDefault printable.2).placed _ default))
  expr position value ofValue ofResult ofParts printable := by
    rcases Stmt.expr_cases position value with
      ⟨_, _, _, result, rfl⟩ | ⟨_, name, parameters, body, rfl⟩ | ⟨tokensSame, printableSame⟩
    · exact .cons (writable_keyword .outWord) (.cons (writable_keyword .fnWord)
        (.cons (writable_ofMark .colon) (.cons (writable_ofMark .colon)
          (ofResult _ _ _ result rfl printable))))
    · obtain ⟨eachParameter, eachStatement⟩ := ofParts _ name parameters body rfl
      exact .cons (writable_keyword .outWord)
        (allWritable_function eachParameter eachStatement printable.1 printable.2.1 printable.2.2)
    · rw [tokensSame]
      exact ofValue (printableSame.1 printable)
  branch _ _ consequent alternate ofTest eachConsequent eachAlternate printable := by
    have consequentWritable := allWritable_statements eachConsequent printable.2.1
    have alternateWritable := allWritable_statements eachAlternate printable.2.2
    refine .cons (writable_keyword .ifWord)
      ((ofTest printable.1).append ((consequentWritable.enclosed _ _).append ?_))
    split
    · exact allWritable_nil
    · exact .cons (writable_keyword .elseWord) (alternateWritable.enclosed _ _)
  whileLoop _ _ body ofTest each printable :=
    .cons (writable_keyword .whileWord) ((ofTest printable.1).append
      ((allWritable_statements each printable.2).enclosed _ _))
  forLoop _ _ _ _ body ofStart ofTest ofUpdate each printable :=
    .cons (writable_keyword .forWord) ((ofStart printable.1).append
      (.cons (writable_ofMark .semicolon) ((ofTest printable.2.1).append
        (.cons (writable_ofMark .semicolon) ((ofUpdate printable.2.2.1).append
          ((allWritable_statements each printable.2.2.2).enclosed _ _))))))
  returnValue _ _ ofValue printable := .cons (writable_keyword .returnWord) (ofValue printable)
  returnNothing _ _ := .singleton (writable_keyword .returnWord)
  debug _ _ each printable :=
    .cons (writable_keyword .debugWord) ((allWritable_values each printable).enclosed _ _)
  use _ path _ := .cons (writable_keyword .useWord) (.singleton (writable_ofString path))

/-- The tokens of a printable program can be written. -/
theorem Program.allWritable
    {program : Program}
    (printable : program.Printable) :
    AllWritable program.tokens :=
  allWritable_statements (fun statement _ => inherited_writable.stmt_all statement) printable

/-! ## Scanning what is written -/

namespace Token

/-- Tokens as text, with a blank behind each. -/
def written (tokens : List Token) : List Char :=
  tokens.flatMap fun token => token.slice ++ [' ']

/-- Written tokens are tiled by themselves, at the places where they are written. -/
theorem exists_tiling_written
    {tokens : List Token}
    (writable : AllWritable tokens)
    (position : Position) :
    ∃ found ending, Tiling position (written tokens)
        (found ++ [{ kind := .eof, lexeme := "", position := ending }]) ∧
      found.map Token.erase = tokens ∧ ∀ token ∈ found, token.kind ≠ .eof := by
  induction tokens generalizing position with
  | nil => exact ⟨[], _, .finish (.nil []), rfl, fun _ mem => absurd mem List.not_mem_nil⟩
  | cons token tokens ih =>
    rw [allWritable_cons] at writable
    have spelled := writable.1.spelled (written tokens)
    obtain ⟨found, ending, tiling, same, noEnd⟩ :=
      ih writable.2 ((position.afterAll token.slice).after ' ')
    have behind := tiling.blank rfl (by decide)
    have whole := Tiling.token (.nil (token.slice ++ ' ' :: written tokens)) spelled behind
    have split : written (token :: tokens) = [] ++ (token.slice ++ ' ' :: written tokens) := by
      simp [written]
    rw [← split] at whole
    refine ⟨_ :: found, ending, whole, ?_, ?_⟩
    · rw [List.map_cons, same]
      exact congrArg (· :: tokens) writable.1.placeless
    · rw [List.forall_mem_cons]
      exact ⟨spelled.kind_ne_eof, noEnd⟩

/-- Written tokens are scanned back. -/
theorem exists_scan_written
    {tokens : List Token}
    (writable : AllWritable tokens) :
    ∃ found, scan (String.ofList (written tokens)) = .ok found ∧
      (Program.tokensAhead found).map Token.erase = tokens := by
  obtain ⟨found, ending, tiling, same, noEnd⟩ := exists_tiling_written writable .start
  refine ⟨_, (scan_eq_ok_iff_tiling _ _).2 (by rwa [String.toList_ofList]), ?_⟩
  rw [Program.tokensAhead, List.takeWhile_append_of_pos, List.takeWhile_cons_of_neg,
    List.append_nil]
  · exact same
  · simp
  · intro token mem
    simpa using noEnd token mem

end Token

/-! ## Sources of programs -/

namespace Grammar

/-- A source of a printable program. -/
noncomputable def source (program : Program) : String :=
  String.ofList (written program.tokens)

/-- A printable program is read from its source. -/
theorem ofSource_source
    {program : Program}
    (printable : program.Printable) :
    ∃ parsed : Program, Program.ofSource (source program) = .ok parsed ∧
      parsed.erase = program.erase := by
  obtain ⟨found, scanned, same⟩ := exists_scan_written (Program.allWritable printable)
  obtain ⟨parsed, ok, erased⟩ := ofTokens_of_tokens printable same
  refine ⟨parsed, ?_, erased⟩
  have bound : (Token.scan (source program) >>= Program.ofTokens) = .ok parsed := by
    rw [source, scanned]
    exact ok
  rw [Program.ofSource, bound]
  rfl

/-- The tokens of a source are such as stand in one. -/
theorem genuine_of_scan
    {source : String}
    {tokens : List Token}
    (scanned : Token.scan source = .ok tokens) :
    ∀ token ∈ Program.tokensAhead tokens, token.Genuine := by
  intro token mem
  have tiling := (scan_eq_ok_iff_tiling source tokens).1 scanned
  have isToken : token ∈ tokens := (List.takeWhile_sublist _).subset mem
  obtain ⟨_, slice, beyond, _, _, spelled⟩ :=
    tiling.exists_slice token isToken (kind_ne_eof_of_mem_tokensAhead mem)
  exact ⟨slice, beyond, spelled⟩

/-- A program that some source is read as, up to positions, is printable. -/
theorem printable_of_ofSource
    {source : String}
    {program parsed : Program}
    (ok : Program.ofSource source = .ok parsed)
    (same : parsed.erase = program.erase) :
    program.Printable := by
  obtain ⟨tokens, scanned, read⟩ := exists_tokens_of_ofSource ok
  -- Without its positions the program is derived from the same tokens without theirs.
  have derives : Derives .program ((Program.tokensAhead tokens).map Token.erase) parsed.erase [] :=
    (ofTokens_sound read).relabel
  have printable : ∀ statement ∈ parsed.erase, statement.Printable := by
    refine derives.printable ?_
    intro token mem
    obtain ⟨origin, originMem, rfl⟩ := List.mem_map.1 mem
    exact genuine_of_scan scanned origin originMem
  rw [same, ← Stmt.allPrintable_iff] at printable
  exact Program.printable_of_erase printable

end Grammar

end TinyScript
