import Mathlib.Data.List.Forall2
import TinyScript.Proofs.Grammar.Completeness
import TinyScript.Proofs.Grammar.Legible
import TinyScript.Proofs.Grammar.Locality
import TinyScript.Proofs.Grammar.Placement

/-!
# Forms with two spellings

Some forms only spell others more briefly: a statement behind a colon is the block of it, `else if`
is an `else` around an `if`, a compound assignment is an assignment of an operation.  Each such pair
of spellings is the same program up to positions.  The two spellings put the same parts in front of
different tokens, and the parts are the same forms there by `Derives.keep`.
-/

namespace TinyScript
namespace Grammar

open Token

/-! ## The same program -/

/-- Two runs of tokens, wherever they are placed, are programs, and these differ at most in their
positions. -/
def SameProgram (first second : List Token) : Prop :=
  ∀ tokens others,
    (Program.tokensAhead tokens).map Token.erase = first.map Token.erase →
    (Program.tokensAhead others).map Token.erase = second.map Token.erase →
    ∃ program program' : Program, Program.ofTokens tokens = .ok program ∧
      Program.ofTokens others = .ok program' ∧ program.erase = program'.erase

variable {first second : List Token}

theorem sameProgram_of_derives
    {program program' : Program}
    (derives : Derives .program first program [])
    (derives' : Derives .program second program' [])
    (erased : program.erase = program'.erase) :
    SameProgram first second := by
  intro tokens others same same'
  obtain ⟨parsed, parses, parsedErased⟩ := derives.moved _ [] same rfl
  obtain ⟨parsed', parses', parsedErased'⟩ := derives'.moved _ [] same' rfl
  refine ⟨parsed, parsed', ofTokens_of_derives parses, ofTokens_of_derives parses', ?_⟩
  exact parsedErased.trans (erased.trans parsedErased'.symm)

theorem sameProgram_of_values
    {level level' : Level}
    {value value' : Expr}
    (derives : Derives (.expression level) first value [])
    (derives' : Derives (.expression level') second value' [])
    (erased : value.erase = value'.erase) :
    SameProgram first second := by
  refine sameProgram_of_derives derives.program_of_value derives'.program_of_value ?_
  exact congrArg (fun value => [Stmt.expr .start value]) erased

/-! ## Parts of a form -/

@[simp] theorem kind_ofMark
    (mark : Mark) :
    (ofMark mark).kind = .mark mark :=
  rfl

@[simp] theorem kindAhead_braced
    (tokens : List Token) :
    kindAhead (braced tokens) = .mark .openBrace :=
  rfl

/-- Behind a part that stands on its own, a mark that goes on with nothing may stand. -/
theorem replaces_nil_of_mark
    (mark : Mark)
    (ends : stops (.mark mark) = true)
    (noColon : mark ≠ .colon)
    (rest : List Token) :
    Replaces (ofMark mark :: rest) [] :=
  replaces_nil ends (declared?_of_kind (by simpa using noColon) rest) (by simp)

/-- So may a colon that begins no declaration. -/
theorem replaces_nil_of_colon
    {rest : List Token}
    (undeclared : declared? (ofMark .colon :: rest) = none) :
    Replaces (ofMark .colon :: rest) [] :=
  replaces_nil rfl undeclared (by simp)

theorem replaces_nil_of_braced
    (tokens rest : List Token) :
    Replaces (braced tokens ++ rest) [] :=
  replaces_nil_of_mark .openBrace rfl (by decide) _

/-- A value on its own is one in parentheses, whatever stands behind them. -/
theorem Derives.enclosed_of_value
    {tokens : List Token}
    {value : Expr}
    (derives : Derives (.expression .assignment) tokens value [])
    (next : List Token) :
    Derives (.expression .primary) (enclosed .openParen .closeParen tokens) value next := by
  have kept := derives.keep (replaces_nil_of_mark .closeParen rfl (by decide) next)
  have grouped : Derives (.expression .primary)
      (ofMark .openParen :: ([] ++ tokens ++ [] ++ [ofMark .closeParen])) value next :=
    .grouped rfl Newlines.nil kept Newlines.nil rfl
  rwa [List.nil_append, List.append_nil] at grouped

/-- A statement on its own is one in a block. -/
theorem Derives.block_of_statement
    {tokens : List Token}
    {statement : Stmt}
    (derives : Derives .statement tokens statement []) :
    Derives .block (braced tokens) [statement] [] := by
  have replaces := replaces_nil_of_mark .closeBrace rfl (by decide) []
  have kept : Derives .statement tokens statement [ofMark .closeBrace] :=
    derives.keep ⟨replaces, .inr rfl⟩
  exact .block rfl Separators.nil (kept.statements_of_statement (.inl rfl)) rfl

/-- Behind a colon, a statement on its own is a body. -/
theorem Derives.body_of_statement
    {tokens : List Token}
    {statement : Stmt}
    (derives : Derives .statement tokens statement []) :
    Derives .body (ofMark .colon :: tokens) [statement] [] :=
  .bodyStatement rfl derives

section Items

variable {mark : Mark} {item : Item} {used next : List Token}

/-- The items of a list may begin on the line of the opening mark. -/
theorem Derives.list_of_items
    {items : List item.Tree}
    (derives : Derives (.items mark item) used items next) :
    Derives (.list mark item) used items next := by
  have list : Derives (.list mark item) ([] ++ used) items next := .list Newlines.nil derives
  exact list

theorem Derives.items_of_last
    {last : item.Tree}
    (derives : Derives (.item item) used last (ofMark mark :: next)) :
    Derives (.items mark item) (used ++ [ofMark mark]) [last] next := by
  have items : Derives (.items mark item) (used ++ [] ++ [ofMark mark]) [last] next :=
    .lastItem derives Newlines.nil rfl
  rwa [List.append_nil] at items

theorem Derives.items_of_more
    {used' : List Token}
    {first : item.Tree}
    {others : List item.Tree}
    (firstDerives : Derives (.item item) used first (ofMark .comma :: (used' ++ next)))
    (othersDerive : Derives (.items mark item) used' others next) :
    Derives (.items mark item) (used ++ ofMark .comma :: used') (first :: others) next := by
  have items : Derives (.items mark item) (used ++ [] ++ ofMark .comma :: ([] ++ used'))
      (first :: others) next :=
    .moreItems firstDerives Newlines.nil rfl Newlines.nil othersDerive
  rwa [List.append_nil] at items

end Items

/-! ## Statements behind a colon -/

/-- Tokens that begin with `const =` or `var =`.  Behind a name and a colon they declare the
name. -/
def BeginsDeclaring (tokens : List Token) : Prop :=
  ∃ word equals rest, tokens = word :: equals :: rest ∧ word.kind = .identifier ∧
    (word.lexeme = "const" ∨ word.lexeme = "var") ∧ equals.kind = .sign .assign

/-- Behind `out` a statement goes on with a function. -/
theorem Derives.function_behind_out
    {used next : List Token}
    {statement : Stmt}
    (derives : Derives .bareStatement used statement next)
    (out : kindAhead used = .keyword .outWord) :
    kindAhead used.tail = .keyword .fnWord := by
  cases derives with
  | exported _ functionKind _ => exact functionKind
  | branchStatement branch =>
    have begins := branch.begins
    rw [out] at begins
    cases begins
  | expressionStatement value =>
    have begins := value.begins
    rw [out] at begins
    cases begins
  | _ => simp_all

theorem Derives.no_assign_behind_out
    {word equals : Token}
    {rest next : List Token}
    {statement : Stmt}
    (derives : Derives .statement (word :: equals :: rest) statement next)
    (out : word.kind = .keyword .outWord) :
    equals.kind ≠ .sign .assign := by
  generalize split : word :: equals :: rest = used at derives
  cases derives with
  | unended statementDerives =>
    subst split
    have function := statementDerives.function_behind_out out
    simp_all
  | @ended used _ _ _ statementDerives =>
    obtain ⟨first, used, rfl⟩ := List.exists_cons_of_ne_nil (statementDerives.spelled rfl)
    rw [List.cons_append, List.cons.injEq] at split
    obtain ⟨rfl, split⟩ := split
    have function := statementDerives.function_behind_out out
    cases used with
    | nil => cases function
    | cons second used =>
      rw [List.cons_append, List.cons.injEq] at split
      obtain ⟨rfl, -⟩ := split
      simp_all

/-- A colon in front of a statement declares nothing if the statement does not look like the rest of
a declaration. -/
theorem Derives.undeclared
    {s next : List Token}
    {statement : Stmt}
    (derives : Derives .statement s statement next)
    (plain : ¬ BeginsDeclaring s) :
    declared? (ofMark .colon :: s) = none := by
  match s with
  | [] | [_] => rfl
  | word :: equals :: rest =>
    by_contra declares
    have assigns : equals.kind = .sign .assign := by
      by_contra other
      exact declares (if_neg fun both => other both.2)
    rw [declared?, if_pos ⟨rfl, assigns⟩] at declares
    unfold Rules.flavour? at declares
    split at declares
    case h_1 kind =>
      refine plain ⟨word, equals, rest, rfl, kind, ?_, assigns⟩
      grind
    case h_2 kind => exact derives.no_assign_behind_out kind assigns
    case h_3 => exact declares rfl

/-! ## Conditions and loops -/

section Bodies

variable {c : List Token} {test : Expr} (testDerives : Derives (.expression .assignment) c test [])

include testDerives

/-- A condition in front of a body. -/
theorem Derives.ifOnly_of_body
    {used : List Token}
    {body : List Stmt}
    (bodyDerives : Derives .body used body [])
    (behind : Replaces used []) :
    Derives .branch (ofWord "if" :: (c ++ used)) (.branch .start test body []) [] := by
  refine .ifOnly rfl (testDerives.keep ?_) bodyDerives (by simp)
  rwa [List.append_nil]

theorem Derives.whileLoop_of_body
    {used : List Token}
    {body : List Stmt}
    (bodyDerives : Derives .body used body [])
    (behind : Replaces used []) :
    Derives .bareStatement (ofWord "while" :: (c ++ used)) (.whileLoop .start test body) [] := by
  refine .whileLoop rfl (testDerives.keep ?_) bodyDerives
  rwa [List.append_nil]

theorem Derives.ifElse_of_alternative
    {b used : List Token}
    {body alternate : List Stmt}
    (bodyDerives : Derives .block (braced b) body [])
    (alternateDerives : Derives .alternative used alternate []) :
    Derives .branch (ofWord "if" :: (c ++ braced b ++ ofWord "else" :: used))
      (.branch .start test body alternate) [] := by
  have testKept := testDerives.keep (replaces_nil_of_braced b (ofWord "else" :: used))
  have branch : Derives .branch (ofWord "if" :: (c ++ braced b ++ [] ++ ofWord "else" :: used))
      (.branch .start test body alternate) [] := by
    refine .ifElse rfl ?_ (.bodyBlock (bodyDerives.keep trivial)) Newlines.nil rfl alternateDerives
    simpa using testKept
  simpa using branch

section Statement

variable {s : List Token} {statement : Stmt} (statementDerives : Derives .statement s statement [])
  (plain : ¬ BeginsDeclaring s)

include statementDerives plain

/-- A statement behind the colon of a condition is the block of it. -/
theorem sameProgram_if_colon :
    SameProgram (ofWord "if" :: (c ++ ofMark .colon :: s)) (ofWord "if" :: (c ++ braced s)) := by
  have colon := testDerives.ifOnly_of_body statementDerives.body_of_statement
    (replaces_nil_of_colon (statementDerives.undeclared plain))
  have block := testDerives.ifOnly_of_body (.bodyBlock statementDerives.block_of_statement)
    (replaces_nil_of_mark .openBrace rfl (by decide) _)
  exact sameProgram_of_derives (Derives.branchStatement colon).program_of_statement
    (Derives.branchStatement block).program_of_statement rfl

/-- A statement behind the colon of a loop is the block of it. -/
theorem sameProgram_while_colon :
    SameProgram (ofWord "while" :: (c ++ ofMark .colon :: s))
      (ofWord "while" :: (c ++ braced s)) := by
  have colon := testDerives.whileLoop_of_body statementDerives.body_of_statement
    (replaces_nil_of_colon (statementDerives.undeclared plain))
  have block := testDerives.whileLoop_of_body (.bodyBlock statementDerives.block_of_statement)
    (replaces_nil_of_mark .openBrace rfl (by decide) _)
  exact sameProgram_of_derives colon.program_of_statement block.program_of_statement rfl

end Statement

/-- `else if` is an `else` with a block of the second condition. -/
theorem sameProgram_else_if
    {b c' b' : List Token}
    {body body' : List Stmt}
    {test' : Expr}
    (bodyDerives : Derives .block (braced b) body [])
    (testDerives' : Derives (.expression .assignment) c' test' [])
    (bodyDerives' : Derives .block (braced b') body' []) :
    SameProgram
      (ofWord "if" :: (c ++ braced b ++ ofWord "else" :: ofWord "if" :: (c' ++ braced b')))
      (ofWord "if" :: (c ++ braced b ++
        ofWord "else" :: braced (ofWord "if" :: (c' ++ braced b')))) := by
  have inner := testDerives'.ifOnly_of_body (.bodyBlock bodyDerives')
    (replaces_nil_of_mark .openBrace rfl (by decide) _)
  have innerBlock := (Derives.unended (.branchStatement inner) (by simp)).block_of_statement
  have chained := testDerives.ifElse_of_alternative bodyDerives (.elseIf inner)
  have nested := testDerives.ifElse_of_alternative bodyDerives (.elseBlock innerBlock)
  exact sameProgram_of_derives (Derives.branchStatement chained).program_of_statement
    (Derives.branchStatement nested).program_of_statement rfl

end Bodies

/-! ## Parameters -/

/-- Tokens that are one parameter without parentheses around it. -/
def IsParameter (tokens : List Token) (parameter : Parameter) : Prop :=
  Derives .bareParameters tokens [parameter] []

/-- Parameters without parentheses are parameters one behind the other. -/
theorem Derives.exists_entries
    {p next : List Token}
    {parameters : List Parameter}
    (derives : Derives .bareParameters p parameters next) :
    ∃ entries, entries.flatten = p ∧ List.Forall₂ IsParameter entries parameters := by
  have nothing : Derives .bareParameters [] [] [] := .noParameters (by simp)
  induction parameters generalizing p with
  | nil =>
    cases derives
    exact ⟨[], rfl, .nil⟩
  | cons parameter parameters ih =>
    cases derives with
    | requiredParameters nameKind _ othersDerive =>
      obtain ⟨entries, rfl, each⟩ := ih othersDerive
      exact ⟨_ :: entries, rfl, .cons (.requiredParameters nameKind (by simp) nothing) each⟩
    | optionalParameters nameKind equalsKind openingKind default closingKind othersDerive =>
      obtain ⟨entries, rfl, each⟩ := ih othersDerive
      have kept := default.keep (replaces_closing closingKind (by decide) [] _)
      refine ⟨_ :: entries, ?_, .cons (.optionalParameters nameKind equalsKind openingKind kept
        closingKind nothing) each⟩
      simp

/-- A parameter goes on with further ones behind it, unless they begin like a default. -/
theorem IsParameter.append
    {entry others tail : List Token}
    {parameter : Parameter}
    {parameters : List Parameter}
    (isParameter : IsParameter entry parameter)
    (noDefault : kindAhead (others ++ tail) ≠ .sign .assign)
    (othersDerive : Derives .bareParameters others parameters tail) :
    Derives .bareParameters (entry ++ others) (parameter :: parameters) tail := by
  cases isParameter with
  | requiredParameters nameKind _ nothing =>
    cases nothing
    exact .requiredParameters nameKind noDefault othersDerive
  | optionalParameters nameKind equalsKind openingKind default closingKind nothing =>
    cases nothing
    rw [List.cons_append, List.cons_append, List.cons_append, List.append_assoc]
    exact .optionalParameters nameKind equalsKind openingKind
      (default.keep (replaces_closing closingKind (by decide) _ _)) closingKind othersDerive

/-- A parameter is an item of a list of parameters. -/
theorem IsParameter.item
    {entry next : List Token}
    {parameter : Parameter}
    (isParameter : IsParameter entry parameter)
    (ends : EndsItem .closeParen next) :
    Derives (.item .parameter) entry parameter next := by
  cases isParameter with
  | requiredParameters nameKind _ nothing =>
    cases nothing
    refine .requiredParameter nameKind ?_
    rcases ends with ends | ends <;> simp [ends]
  | @optionalParameters used₁ _ _ _ _ _ closing default _ nameKind equalsKind openingKind
      defaultDerives closingKind nothing =>
    cases nothing
    have kept := defaultDerives.keep (replaces_closing closingKind (by decide) next _)
    have grouped := Derives.grouped openingKind Newlines.nil kept Newlines.nil closingKind
    rw [List.nil_append, List.append_nil] at grouped
    exact .optionalParameter nameKind equalsKind
      (grouped.loosen (by decide) (follows_of_endsValue (ends.endsValue rfl) _))

/-- Parameters one behind the other, in front of what is neither a further one nor a default. -/
theorem bareParameters_flatten
    {entries : List (List Token)}
    {parameters : List Parameter}
    (each : List.Forall₂ IsParameter entries parameters)
    {tail : List Token}
    (noName : kindAhead tail ≠ .identifier)
    (noDefault : kindAhead tail ≠ .sign .assign) :
    Derives .bareParameters entries.flatten parameters tail ∧
      kindAhead (entries.flatten ++ tail) ≠ .sign .assign := by
  induction each with
  | nil => exact ⟨.noParameters noName, noDefault⟩
  | cons isParameter _ ih =>
    rw [List.flatten_cons]
    refine ⟨isParameter.append ih.2 ih.1, ?_⟩
    cases isParameter <;> simp_all

/-- Parameters with commas between them. -/
theorem items_separated
    {entries : List (List Token)}
    {parameters : List Parameter}
    (each : List.Forall₂ IsParameter entries parameters)
    (spelled : entries ≠ [])
    (next : List Token) :
    Derives (.items .closeParen .parameter) (separated entries ++ [ofMark .closeParen]) parameters
      next := by
  -- One case for each equation of `separated`.
  match each with
  | .nil => exact absurd rfl spelled
  | .cons isParameter .nil => exact (isParameter.item (.inr rfl)).items_of_last
  | .cons isParameter (.cons second others) =>
    have rest := items_separated (.cons second others) (List.cons_ne_nil _ _) next
    rw [separated]
    · simpa using (isParameter.item (.inl rfl)).items_of_more rest
    · simp

/-! ## Functions -/

section Functions

variable {p : List Token} {parameters : List Parameter}
  (parametersDerive : Derives .bareParameters p parameters []) (spelled : p ≠ [])

include parametersDerive spelled

/-- Parameters begin with a name. -/
theorem Derives.name_ahead
    (next : List Token) :
    kindAhead (p ++ next) = .identifier := by
  cases parametersDerive with
  | noParameters => exact absurd rfl spelled
  | requiredParameters nameKind | optionalParameters nameKind => simpa using nameKind

/-- Parameters stay the same in front of the body of a function. -/
theorem Derives.parameters_of_bare
    {body : List Stmt}
    {used : List Token}
    (bodyDerives : Derives .functionBody used body []) :
    Derives .parameters p parameters (used ++ []) := by
  obtain ⟨entries, rfl, each⟩ := parametersDerive.exists_entries
  have named := parametersDerive.name_ahead spelled (used ++ [])
  refine .unlistedParameters ?_ (bareParameters_flatten each ?_ ?_).1
  · rw [named]
    simp
  · exact bodyDerives.kindAhead_ne rfl rfl []
  · exact bodyDerives.kindAhead_ne rfl rfl []

theorem Derives.lambda_of_body
    {used : List Token}
    {body : List Stmt}
    (bodyDerives : Derives .functionBody used body []) :
    Derives (.expression .primary) (ofWord "lambda" :: (p ++ used))
      (.function .start none false parameters body) [] := by
  have named := parametersDerive.name_ahead spelled used
  exact .lambda (.unnamed (.inr rfl) (by simp [named])
    (parametersDerive.parameters_of_bare spelled bodyDerives) bodyDerives)

/-- The value behind the colon of a lambda is what the block of it returns. -/
theorem sameProgram_lambda_colon
    {t : List Token}
    {value : Expr}
    (valueDerives : Derives (.expression .ternary) t value []) :
    SameProgram (ofWord "lambda" :: (p ++ ofMark .colon :: t))
      (ofWord "lambda" :: (p ++ braced (ofWord "return" :: t))) := by
  have returned : Derives .statement (ofWord "return" :: t) (.returnValue .start value) [] :=
    .unended (.returnValue rfl (valueDerives.loosen (by decide) (follows_nil _))) (by simp)
  have valueBehind : Derives .functionBody (ofMark .colon :: t) (Rules.returnBody value) [] :=
    .functionValue rfl valueDerives
  have colon := parametersDerive.lambda_of_body spelled valueBehind
  have block := parametersDerive.lambda_of_body spelled (.functionBlock returned.block_of_statement)
  exact sameProgram_of_values colon block rfl

/-- Parameters may stand in parentheses with commas between them. -/
theorem sameProgram_listed
    {entries : List (List Token)}
    (flattened : entries.flatten = p)
    (each : List.Forall₂ IsParameter entries parameters)
    {name : Token}
    (nameKind : name.kind = .identifier)
    {b : List Token}
    {body : List Stmt}
    (bodyDerives : Derives .block (braced b) body []) :
    SameProgram (ofWord "fn" :: name :: (p ++ braced b))
      (ofWord "fn" :: name ::
        (enclosed .openParen .closeParen (separated entries) ++ braced b)) := by
  have some : entries ≠ [] := by
    rintro rfl
    exact spelled flattened.symm
  have bare := parametersDerive.parameters_of_bare spelled (.functionBlock bodyDerives)
  have listed : Derives .parameters (enclosed .openParen .closeParen (separated entries)) parameters
      (braced b ++ []) :=
    .listedParameters rfl (items_separated each some _).list_of_items
  exact sameProgram_of_values
    (Derives.lambda (.named rfl nameKind bare (.functionBlock bodyDerives)))
    (Derives.lambda (.named rfl nameKind listed (.functionBlock bodyDerives))) rfl

end Functions

/-- A value behind two colons is what a function returns that is called on the spot. -/
theorem sameProgram_called
    {e : List Token}
    {value : Expr}
    (valueDerives : Derives (.expression .assignment) e value []) :
    SameProgram (ofWord "fn" :: ofMark .colon :: ofMark .colon :: e)
      (enclosed .openParen .closeParen (ofWord "fn" :: braced (ofWord "return" :: e)) ++
        enclosed .openParen .closeParen []) := by
  have returned : Derives .statement (ofWord "return" :: e) (.returnValue .start value) [] :=
    .unended (.returnValue rfl valueDerives) (by simp)
  have called : Derives (.function false) (ofWord "fn" :: ofMark .colon :: ofMark .colon :: e)
      (.call .start (.function .start none false [] (Rules.returnBody value)) []) [] :=
    .calledOnTheSpot (.inl rfl) rfl rfl valueDerives
  have function : Derives (.function false)
      (ofWord "fn" :: ([] ++ braced (ofWord "return" :: e)))
      (.function .start none false [] [.returnValue .start value]) [] :=
    .unnamed (.inl ⟨rfl, by simp⟩) (by simp)
      (.unlistedParameters (by simp) (.noParameters (by simp)))
      (.functionBlock returned.block_of_statement)
  have callee := ((Derives.lambda function).loosen (Nat.zero_le _) (follows_nil .assignment))
    |>.enclosed_of_value (enclosed .openParen .closeParen [])
  have nothing : Derives (.items .closeParen .value) [ofMark .closeParen] [] [] := .noItems rfl
  have call : Derives .accesses _ _ [] := .call (.subject callee) rfl nothing.list_of_items
  exact sameProgram_of_values (.lambda called) (.suffixed call (follows_nil .suffixed).ends) rfl

/-! ## Objects and assignments -/

/-- A key on its own is the variable of its name. -/
theorem sameProgram_shorthand
    {x : Token}
    (nameKind : x.kind = .identifier) :
    SameProgram (braced [x]) (braced [x, ofMark .colon, x]) := by
  have close : EndsItem .closeBrace [ofMark .closeBrace] := .inr rfl
  have short : Derives (.item .field) [x] (.mk x.lexeme (.name x.position x.lexeme))
      [ofMark .closeBrace] :=
    .shorthand (.inl nameKind) Newlines.nil close
  have name : Derives (.expression .assignment) [x] (.name x.position x.lexeme)
      [ofMark .closeBrace] :=
    (Derives.name nameKind).loosen (Nat.zero_le _) (follows_of_endsValue rfl _)
  have long : Derives (.item .field) (x :: ([] ++ ofMark .colon :: ([] ++ [x])))
      (.mk x.lexeme (.name x.position x.lexeme)) [ofMark .closeBrace] :=
    .field (.inl nameKind) Newlines.nil rfl Newlines.nil name
  have object {entry : List Token} {field : Field}
      (derives : Derives (.item .field) entry field [ofMark .closeBrace]) :
      Derives (.expression .primary) (braced entry) (.object .start [field]) [] :=
    .object rfl derives.items_of_last.list_of_items
  exact sameProgram_of_values (object short) (object long) rfl

/-- A variable, with the calls and accesses behind it, in front of what adds none. -/
theorem Derives.suffixed_before
    {T next : List Token}
    {target : Expr}
    (targetDerives : Derives .accesses T target [])
    (named : kindAhead T = .identifier)
    (follows : Follows .suffixed next) :
    Derives (.expression .suffixed) T target next :=
  .suffixed (targetDerives.accesses_before rfl named next) follows.ends

/-- An operator behind a variable, an access or a call, with a value in parentheses behind it, is an
operation. -/
theorem Derives.operation_of_accesses
    {chain : Chain}
    {T e : List Token}
    {target value : Expr}
    (targetDerives : Derives .accesses T target [])
    (named : kindAhead T = .identifier)
    (valueDerives : Derives (.expression .assignment) e value [])
    {sign : Token}
    {operation : Position → Expr → Expr → Expr}
    (found : chain.operation? sign = some operation) :
    Derives (.expression .assignment) (T ++ sign :: enclosed .openParen .closeParen e)
      (operation target.position target value) [] := by
  have follows := follows_of_operation found (enclosed .openParen .closeParen e)
  have left : Derives (.expression chain.operand) T target
      (sign :: (enclosed .openParen .closeParen e ++ [])) := by
    rw [List.append_nil]
    have tight : chain.operand.rank ≤ Level.suffixed.rank := by cases chain <;> decide
    exact (targetDerives.suffixed_before named (follows.of_le tight)).loosen tight follows
  have right : Derives (.expression chain.operand) (enclosed .openParen .closeParen e) value [] :=
    (valueDerives.enclosed_of_value []).loosen (Level.rank_le_primary _) (follows_nil _)
  have operations := Derives.operation (.operand left) found right
  exact (Derives.chain operations rfl).loosen (Nat.zero_le _) (follows_nil _)

/-- A compound assignment assigns what the operation makes of the target and the value. -/
theorem sameProgram_compound
    {T e : List Token}
    {target value : Expr}
    (targetDerives : Derives .accesses T target [])
    (named : kindAhead T = .identifier)
    (valueDerives : Derives (.expression .assignment) e value [])
    {compound sign : Token}
    (op : Arithmetic)
    (compounds : Rules.compound? compound = some op)
    (chain : Chain)
    (operates : chain.operation? sign = some (.binary · (.arithmetic op))) :
    SameProgram (T ++ compound :: e)
      (T ++ ofOperator "=" :: (T ++ sign :: enclosed .openParen .closeParen e)) := by
  have before {token : Token} {rest : List Token} (follows : Follows .ternary (token :: rest)) :
      Derives (.expression .ternary) T target (token :: rest) :=
    (targetDerives.suffixed_before named (follows.of_le (by decide))).loosen (by decide) follows
  have operation := targetDerives.operation_of_accesses named valueDerives operates
  exact sameProgram_of_values
    (Derives.compoundAssign (before (follows_of_compound compounds _)) compounds valueDerives)
    (Derives.assign (before (follows_of_assign rfl _)) rfl operation) rfl

/-! ## Brief spellings -/

/-- A brief spelling and the one that it stands for are the same program, whatever the parts are
that they have in common: conditions `c`, a statement `s`, values `e` and `t`, parameters `p`,
blocks `b`, names `f` and `x`, and a name `T` with calls and accesses behind it. -/
theorem sameProgram_brief_spelling
    {c c' s e t p b b' T : List Token}
    {f x : Token}
    {test test' value result target : Expr}
    {statement : Stmt}
    {body body' : List Stmt}
    {parameters : List Parameter}
    (cDerives : Derives (.expression .assignment) c test [])
    (cDerives' : Derives (.expression .assignment) c' test' [])
    (sDerives : Derives .statement s statement [])
    (sPlain : ¬ BeginsDeclaring s)
    (eDerives : Derives (.expression .assignment) e value [])
    (tDerives : Derives (.expression .ternary) t result [])
    (pDerives : Derives .bareParameters p parameters [])
    (pSpelled : p ≠ [])
    (bDerives : Derives .block (braced b) body [])
    (bDerives' : Derives .block (braced b') body' [])
    (targetDerives : Derives .accesses T target [])
    (targetNamed : kindAhead T = .identifier)
    (fKind : f.kind = .identifier)
    (xKind : x.kind = .identifier) :
    SameProgram (ofWord "if" :: (c ++ ofMark .colon :: s)) (ofWord "if" :: (c ++ braced s)) ∧
    SameProgram (ofWord "while" :: (c ++ ofMark .colon :: s))
      (ofWord "while" :: (c ++ braced s)) ∧
    SameProgram
      (ofWord "if" :: (c ++ braced b ++ ofWord "else" :: ofWord "if" :: (c' ++ braced b')))
      (ofWord "if" :: (c ++ braced b ++
        ofWord "else" :: braced (ofWord "if" :: (c' ++ braced b')))) ∧
    SameProgram (ofWord "lambda" :: (p ++ ofMark .colon :: t))
      (ofWord "lambda" :: (p ++ braced (ofWord "return" :: t))) ∧
    (∃ entries, entries.flatten = p ∧ List.Forall₂ IsParameter entries parameters) ∧
    (∀ entries, entries.flatten = p → List.Forall₂ IsParameter entries parameters →
      SameProgram (ofWord "fn" :: f :: (p ++ braced b))
        (ofWord "fn" :: f ::
          (enclosed .openParen .closeParen (separated entries) ++ braced b))) ∧
    SameProgram (ofWord "fn" :: ofMark .colon :: ofMark .colon :: e)
      (enclosed .openParen .closeParen (ofWord "fn" :: braced (ofWord "return" :: e)) ++
        enclosed .openParen .closeParen []) ∧
    SameProgram (braced [x]) (braced [x, ofMark .colon, x]) ∧
    ∀ op ∈ [("+=", "+"), ("-=", "-"), ("*=", "*"), ("/=", "/")],
      SameProgram (T ++ ofOperator op.1 :: e)
        (T ++ ofOperator "=" :: (T ++ ofOperator op.2 :: enclosed .openParen .closeParen e)) := by
  refine ⟨sameProgram_if_colon cDerives sDerives sPlain,
    sameProgram_while_colon cDerives sDerives sPlain,
    sameProgram_else_if cDerives bDerives cDerives' bDerives',
    sameProgram_lambda_colon pDerives pSpelled tDerives, pDerives.exists_entries,
    fun entries flattened each =>
      sameProgram_listed pDerives pSpelled flattened each fKind bDerives,
    sameProgram_called eDerives, sameProgram_shorthand xKind, ?_⟩
  simp only [List.forall_mem_cons, List.not_mem_nil, false_implies, implies_true, and_true]
  exact ⟨sameProgram_compound targetDerives targetNamed eDerives .add rfl .sum rfl,
    sameProgram_compound targetDerives targetNamed eDerives .subtract rfl .sum rfl,
    sameProgram_compound targetDerives targetNamed eDerives .multiply rfl .product rfl,
    sameProgram_compound targetDerives targetNamed eDerives .divide rfl .product rfl⟩

/-- A bare `return` behind a colon and in a block, two parameters of an empty function with and
without parentheses, and `o.k += e` and `o.k = o.k + (e)` are the same programs. -/
theorem sameProgram_brief_spelling_of_names :
    SameProgram [ofWord "if", ofWord "c", ofMark .colon, ofWord "return"]
      [ofWord "if", ofWord "c", ofMark .openBrace, ofWord "return", ofMark .closeBrace] ∧
    SameProgram
      [ofWord "fn", ofWord "f", ofWord "p", ofOperator "=", ofMark .openParen, ofWord "q",
        ofMark .closeParen, ofWord "r", ofMark .openBrace, ofMark .closeBrace]
      [ofWord "fn", ofWord "f", ofMark .openParen, ofWord "p", ofOperator "=", ofMark .openParen,
        ofWord "q", ofMark .closeParen, ofMark .comma, ofWord "r", ofMark .closeParen,
        ofMark .openBrace, ofMark .closeBrace] ∧
    SameProgram [ofWord "o", ofMark .dot, ofWord "k", ofOperator "+=", ofWord "e"]
      [ofWord "o", ofMark .dot, ofWord "k", ofOperator "=", ofWord "o", ofMark .dot, ofWord "k",
        ofOperator "+", ofMark .openParen, ofWord "e", ofMark .closeParen] := by
  have name (word : String) (kind : (ofWord word).kind = .identifier) (level : Level) :
      Derives (.expression level) [ofWord word] (.name .start word) [] :=
    (Derives.name kind).loosen (Level.rank_le_primary _) (follows_nil _)
  have plain : ¬ BeginsDeclaring [ofWord "return"] := by
    rintro ⟨_, _, _, split, _⟩
    cases split
  have returns : Derives .statement [ofWord "return"] (.returnNothing .start) [] :=
    .unended (.returnNothing rfl (.inr (.inr (.inr rfl)))) (by decide)
  have last : IsParameter [ofWord "r"] (.required "r") :=
    .requiredParameters rfl (by simp) (.noParameters (by simp))
  have default : Derives (.expression .assignment) [ofWord "q"] (.name .start "q")
      [ofMark .closeParen] :=
    (Derives.name rfl).loosen (Nat.zero_le _) (follows_of_endsValue rfl _)
  have first : IsParameter
      (ofWord "p" :: ofOperator "=" :: ofMark .openParen :: ([ofWord "q"] ++ [ofMark .closeParen]))
      (.optional "p" (.name .start "q")) :=
    .optionalParameters rfl rfl rfl default rfl (.noParameters (by simp))
  have parameters := IsParameter.append first (by rw [List.append_nil]; decide) last
  have block : Derives .block (ofMark .openBrace :: ([] ++ [] ++ [ofMark .closeBrace])) [] [] :=
    .block rfl Separators.nil (.noStatements (.inl rfl)) rfl
  have target : Derives .accesses ([ofWord "o"] ++ [ofMark .dot, ofWord "k"])
      (.member .start (.name .start "o") "k") [] :=
    .member (.subject (.name rfl)) rfl (.inl rfl)
  have kind (word : String) (is : (ofWord word).kind = .identifier) := is
  obtain ⟨ifColon, _, _, _, _, listed, _, _, compound⟩ :=
    sameProgram_brief_spelling (name "c" rfl _) (name "c" rfl _) returns plain (name "e" rfl _)
      (name "t" rfl _) parameters (by simp) block block target rfl (kind "f" rfl) (kind "x" rfl)
  exact ⟨ifColon, listed [_, _] rfl (.cons first (.cons last .nil)), compound ("+=", "+") (by simp)⟩

end Grammar
end TinyScript
