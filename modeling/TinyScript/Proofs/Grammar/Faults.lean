import TinyScript.Proofs.Grammar.Soundness

/-!
# Faults of the grammar

Where the grammar refuses a source it speaks of one of the tokens there.  A parser
is faithful if it does so and leaves an end of what was ahead of it; faithful
parsers in sequence are faithful, and so is every form of the grammar.

Only a declaration without a name is refused for a value that has been read
already.  The value has the position of one of its tokens.
-/

namespace TinyScript
namespace Grammar

open Parse

variable {α β : Type} {tokens : List Token} {stop : Token}

/-! ## Faithful parsers -/

/-- A fault of the grammar at one of the tokens in question, with as many carets as that is wide.
A target that cannot be declared has one caret, where it begins. -/
structure Blames (tokens : List Token) (diagnostic : Diagnostic) : Prop where
  stage : diagnostic.stage = .parser
  bare : diagnostic.snippet = none
  place : ∃ token ∈ tokens,
    diagnostic.position = some token.position ∧
      (diagnostic.width = token.width ∨
        diagnostic.message = "invalid declaration target" ∧ diagnostic.width = 1)

/-- What a parser may do with the tokens ahead: leave an end of them, or find a fault of a token in
question. -/
def Admits
    (tokens ahead : List Token) :
    Except Diagnostic (α × List Token) → Prop
  | .ok (_, rest) => rest <:+ ahead
  | .error diagnostic => Blames tokens diagnostic

/-- A parser that reads only tokens in question, and finds faults only of such. -/
def Faithful
    (tokens : List Token)
    (stop : Token)
    (parser : Parse α) :
    Prop :=
  ∀ ahead, stop :: ahead ⊆ tokens → Admits tokens ahead (parser stop ahead)

/-- A result is admitted by tokens if the first part and whatever follows it are. -/
theorem Admits.bind
    {first : Parse α}
    {next : α → Parse β}
    {ahead : List Token}
    (admits : Admits tokens ahead (first stop ahead))
    (goesOn : ∀ {result rest}, first stop ahead = .ok (result, rest) → rest <:+ ahead →
      Admits tokens rest (next result stop rest)) :
    Admits tokens ahead ((first >>= next) stop ahead) := by
  rw [bind_apply]
  rcases outcome : first stop ahead with diagnostic | ⟨result, rest⟩
  · rw [outcome] at admits
    exact admits
  · rw [outcome] at admits
    have later := goesOn outcome admits
    change Admits tokens ahead (next result stop rest)
    rcases last : next result stop rest with diagnostic | ⟨found, left⟩
    · rw [last] at later
      exact later
    · rw [last] at later
      exact List.IsSuffix.trans later admits

/-- What is left is in question too. -/
theorem subset_of_suffix
    {ahead rest : List Token}
    (inQuestion : stop :: ahead ⊆ tokens)
    (left : rest <:+ ahead) :
    stop :: rest ⊆ tokens := by
  rw [List.cons_subset] at inQuestion ⊢
  exact ⟨inQuestion.1, fun token mem => inQuestion.2 (left.subset mem)⟩

/-- Faithful parsers in sequence. -/
theorem Faithful.bind
    {first : Parse α}
    {next : α → Parse β}
    (faithful : Faithful tokens stop first)
    (goesOn : ∀ result, Faithful tokens stop (next result)) :
    Faithful tokens stop (first >>= next) := by
  intro ahead inQuestion
  apply (faithful ahead inQuestion).bind
  intro result rest _ left
  exact goesOn result rest (subset_of_suffix inQuestion left)

theorem faithful_pure
    (result : α) :
    Faithful tokens stop (pure result) := by
  intro ahead _
  exact List.suffix_refl ahead

/-- Two parsers of which a test chooses one. -/
theorem Faithful.ite
    {condition : Prop}
    [Decidable condition]
    {first second : Parse α}
    (firstFaithful : Faithful tokens stop first)
    (secondFaithful : Faithful tokens stop second) :
    Faithful tokens stop (if condition then first else second) := by
  split
  · exact firstFaithful
  · exact secondFaithful

/-- A parser that is chosen by the tokens ahead. -/
theorem Faithful.withAhead
    {body : List Token → Parse α}
    (faithful : ∀ bound, Faithful tokens stop (body bound)) :
    Faithful tokens stop (withAhead body) := by
  intro ahead inQuestion
  exact faithful ahead ahead inQuestion

/-! ## Steps -/

theorem headD_mem
    {ahead : List Token}
    (inQuestion : stop :: ahead ⊆ tokens) :
    ahead.headD stop ∈ tokens := by
  cases ahead with
  | nil => exact inQuestion List.mem_cons_self
  | cons token rest => exact inQuestion (List.mem_cons_of_mem _ List.mem_cons_self)

/-- A refusal of one of the tokens is faithful to them. -/
theorem faithful_refuse
    {token : Token}
    (inQuestion : token ∈ tokens)
    (message : String) :
    Faithful tokens stop (refuse token message : Parse α) := by
  intro ahead _
  rw [refuse_apply]
  exact ⟨rfl, rfl, token, inQuestion, rfl, .inl rfl⟩

/-- Whatever is done with the next token may refuse it. -/
theorem Faithful.peek
    {next : Token → Parse α}
    (faithful : ∀ token ∈ tokens, Faithful tokens stop (next token)) :
    Faithful tokens stop (peek >>= next) := by
  intro ahead inQuestion
  exact faithful _ (headD_mem inQuestion) ahead inQuestion

/-- A refusal of the next token is faithful. -/
theorem faithful_refuse_next
    (message : String) :
    Faithful tokens stop (do refuse (← Parse.peek) message : Parse α) :=
  Faithful.peek fun _ inQuestion => faithful_refuse inQuestion message

/-- To go on to the next token is faithful, since none is made up. -/
theorem faithful_advance :
    Faithful tokens stop advance := by
  intro ahead _
  exact List.tail_suffix ahead

/-- To look at the next token is faithful. -/
theorem faithful_check
    (kind : Token.Kind) :
    Faithful tokens stop (check kind) := by
  intro ahead _
  exact List.suffix_refl ahead

/-- To take a token that may be there is faithful. -/
theorem faithful_accept
    (kind : Token.Kind) :
    Faithful tokens stop (accept kind) := by
  intro ahead _
  by_cases found : (ahead.headD stop).kind = kind
  · rw [accept_of_eq found]
    exact List.tail_suffix ahead
  · rw [accept_of_ne found]
    exact List.suffix_refl ahead

/-- To want a token is faithful, since it is the one found instead that is refused. -/
theorem faithful_expect
    (kind : Token.Kind)
    (message : String) :
    Faithful tokens stop (expect kind message) := by
  intro ahead inQuestion
  by_cases found : (ahead.headD stop).kind = kind
  · rw [expect_of_eq found]
    exact List.tail_suffix ahead
  · simp only [expect, if_neg found]
    exact faithful_refuse (headD_mem inQuestion) _ ahead inQuestion

/-- To look out for a declaration is faithful. -/
theorem faithful_declarationAhead :
    Faithful tokens stop Rules.declarationAhead := by
  intro ahead _
  unfold Rules.declarationAhead
  repeat' split
  all_goals exact List.suffix_refl _

theorem faithful_skipNewlines :
    Faithful tokens stop skipNewlines := by
  intro ahead _
  exact List.dropWhile_suffix _

theorem faithful_skipSeparators :
    Faithful tokens stop skipSeparators := by
  intro ahead _
  exact List.dropWhile_suffix _

theorem faithful_acceptPastNewlines
    (kind : Token.Kind) :
    Faithful tokens stop (acceptPastNewlines kind) := by
  intro ahead _
  simp only [acceptPastNewlines]
  split
  · exact (List.tail_suffix _).trans (List.dropWhile_suffix _)
  · exact List.suffix_refl ahead

/-! ## Repetitions -/

/-- To extend a result as often as possible is faithful if each extension is. -/
theorem faithful_extendUpTo
    {extension? : Token → Option (α → Parse α)}
    (faithful : ∀ token extension, extension? token = some extension →
      ∀ result, Faithful tokens stop (extension result))
    (bound : List Token)
    (result : α) :
    Faithful tokens stop (extendUpTo extension? bound result) := by
  induction bound generalizing result with
  | nil => exact faithful_pure result
  | cons _ bound ih =>
    apply Faithful.peek
    intro token _
    cases extends? : extension? token with
    | none => exact faithful_pure result
    | some extension =>
      exact faithful_advance.bind fun _ => (faithful token extension extends? result).bind ih

theorem faithful_extend
    {extension? : Token → Option (α → Parse α)}
    (faithful : ∀ token extension, extension? token = some extension →
      ∀ result, Faithful tokens stop (extension result))
    (result : α) :
    Faithful tokens stop (extend extension? result) :=
  Faithful.withAhead fun bound => faithful_extendUpTo faithful bound result

/-- A list of items is faithful if each item is. -/
theorem faithful_itemsUpTo
    {item : Parse α}
    (faithful : Faithful tokens stop item)
    (closing : Mark)
    (bound : List Token) :
    Faithful tokens stop (itemsUpTo closing item bound) := by
  induction bound with
  | nil => exact faithful_pure []
  | cons _ bound ih =>
    refine (faithful_check _).bind fun closes => .ite (faithful_pure []) ?_
    refine faithful.bind fun first => faithful_skipNewlines.bind fun _ => ?_
    refine (faithful_accept _).bind fun goesOn => .ite ?_ (faithful_pure [first])
    exact faithful_skipNewlines.bind fun _ => ih.bind fun others => faithful_pure _

theorem faithful_listUpTo
    {item : Parse α}
    (faithful : Faithful tokens stop item)
    (closing : Mark)
    (message : String) :
    Faithful tokens stop (listUpTo closing message item) := by
  refine faithful_skipNewlines.bind fun _ => Faithful.peek fun next _ => ?_
  refine (Faithful.withAhead fun bound => faithful_itemsUpTo faithful _ _).bind fun items => ?_
  exact (faithful_expect _ _).bind fun _ => faithful_pure items

/-- A list of statements is faithful if each statement is. -/
theorem faithful_statementsUpTo
    {statement : Parse Stmt}
    (faithful : Faithful tokens stop statement)
    (isEnd : Token → Bool)
    (bound : List Token) :
    Faithful tokens stop (Rules.statementsUpTo statement isEnd bound) := by
  induction bound with
  | nil => exact faithful_pure []
  | cons _ bound ih =>
    refine Faithful.peek fun next _ => .ite (faithful_pure []) ?_
    refine faithful.bind fun first => faithful_skipSeparators.bind fun _ => ?_
    exact ih.bind fun others => faithful_pure _

theorem faithful_statements
    {statement : Parse Stmt}
    (faithful : Faithful tokens stop statement)
    (isEnd : Token → Bool) :
    Faithful tokens stop (Rules.statements statement isEnd) :=
  faithful_skipSeparators.bind fun _ =>
    Faithful.withAhead fun bound => faithful_statementsUpTo faithful isEnd bound

/-! ## Forms -/

/-- Rules whose parsers are all faithful. -/
structure RulesFaithful (tokens : List Token) (stop : Token) (rules : Rules) : Prop where
  expression : Faithful tokens stop rules.expression
  ternary : Faithful tokens stop rules.ternary
  unary : Faithful tokens stop rules.unary
  statement : Faithful tokens stop rules.statement
  branch : Faithful tokens stop rules.branch

section Forms

variable {rules : Rules} (faithful : RulesFaithful tokens stop rules)

include faithful

/-- Blocks have positions of their own tokens only. -/
theorem faithful_block :
    Faithful tokens stop rules.block := by
  refine (faithful_expect _ _).bind fun _ => ?_
  refine (faithful_statements faithful.statement _).bind fun body => ?_
  exact (faithful_expect _ _).bind fun _ => faithful_pure body

theorem faithful_body
    (context : String) :
    Faithful tokens stop (rules.body context) := by
  refine (faithful_check _).bind fun isBlock => .ite (faithful_block faithful) ?_
  refine (faithful_accept _).bind fun isStatement => .ite ?_ (faithful_refuse_next _)
  exact faithful.statement.bind fun statement => faithful_pure [statement]

/-- Parameters have defaults with positions of their own tokens only. -/
theorem faithful_bareParameters
    (bound : List Token) :
    Faithful tokens stop (rules.bareParameters bound) := by
  induction bound with
  | nil => exact faithful_pure []
  | cons _ bound ih =>
    refine (faithful_check _).bind fun named => .ite ?_ (faithful_pure [])
    refine faithful_advance.bind fun name => ?_
    refine (faithful_accept _).bind fun hasDefault => .ite ?_ ?_
    · refine (faithful_expect _ _).bind fun _ => faithful.expression.bind fun default => ?_
      refine (faithful_expect _ _).bind fun _ => (faithful_pure _).bind fun first => ?_
      exact ih.bind fun others => faithful_pure _
    · exact (faithful_pure _).bind fun first => ih.bind fun others => faithful_pure _

theorem faithful_parameter :
    Faithful tokens stop rules.parameter := by
  refine (faithful_expect _ _).bind fun name => (faithful_accept _).bind fun hasDefault => ?_
  exact .ite (faithful.ternary.bind fun default => faithful_pure _) (faithful_pure _)

theorem faithful_parameters :
    Faithful tokens stop rules.parameters := by
  refine (faithful_accept _).bind fun listed => .ite ?_ ?_
  · exact faithful_listUpTo (faithful_parameter faithful) _ _
  · exact Faithful.withAhead fun bound => faithful_bareParameters faithful bound

/-- Functions have positions of their own tokens only. -/
theorem faithful_function
    (exported : Bool) :
    Faithful tokens stop (rules.function exported) := by
  refine faithful_advance.bind fun keyword => (faithful_accept _).bind fun colon => .ite ?_ ?_
  · refine (faithful_accept _).bind fun onTheSpot => .ite ?_ ?_
    · exact faithful.expression.bind fun value => faithful_pure _
    · refine (faithful_parameters faithful).bind fun parameters => ?_
      refine (faithful_expect _ _).bind fun _ => ?_
      exact faithful.ternary.bind fun value => faithful_pure _
  · refine (faithful_check _).bind fun nameAhead => ?_
    refine .ite (faithful_advance.bind fun word => (faithful_pure _).bind fun name => ?_)
      ((faithful_pure none).bind fun name => ?_)
    all_goals
      refine (faithful_parameters faithful).bind fun parameters => ?_
      refine (faithful_check _).bind fun isBlock => .ite ?_ ?_
      · exact (faithful_block faithful).bind fun body => faithful_pure _
      · refine (faithful_accept _).bind fun isValue => .ite ?_ (faithful_refuse_next _)
        exact faithful.ternary.bind fun value => faithful_pure _

/-- Properties have positions of their own tokens only. -/
theorem faithful_field :
    Faithful tokens stop rules.field := by
  refine Faithful.peek fun key inQuestion => .ite ?_ (faithful_refuse inQuestion _)
  refine faithful_advance.bind fun _ => faithful_skipNewlines.bind fun _ => ?_
  refine (faithful_accept _).bind fun hasValue => .ite ?_ ?_
  · exact faithful_skipNewlines.bind fun _ => faithful.expression.bind fun value => faithful_pure _
  · refine (faithful_check _).bind fun comma => (faithful_check _).bind fun closes => ?_
    exact .ite (faithful_pure _) (faithful_refuse_next _)

/-- Primary expressions have positions of their own tokens only. -/
theorem faithful_primary :
    Faithful tokens stop rules.primary := by
  refine Faithful.peek fun token inQuestion => ?_
  have takes {value : Expr} :
      Faithful tokens stop (do let _ ← advance; pure value) :=
    faithful_advance.bind fun _ => faithful_pure value
  dsimp only
  split
  case h_1 | h_4 | h_5 | h_6 | h_7 => exact takes
  case h_2 | h_3 =>
    split
    · exact faithful_refuse inQuestion _
    · exact takes
  case h_8 => exact faithful_advance.bind fun _ => faithful.unary.bind fun _ => faithful_pure _
  case h_9 | h_10 => exact faithful_function faithful false
  case h_11 =>
    refine faithful_advance.bind fun _ => faithful_skipNewlines.bind fun _ => ?_
    refine faithful.expression.bind fun inner => faithful_skipNewlines.bind fun _ => ?_
    exact (faithful_expect _ _).bind fun _ => faithful_pure inner
  case h_12 =>
    refine faithful_advance.bind fun _ => ?_
    exact (faithful_listUpTo faithful.expression _ _).bind fun items => faithful_pure _
  case h_13 =>
    refine faithful_advance.bind fun _ => ?_
    exact (faithful_listUpTo (faithful_field faithful) _ _).bind fun fields => faithful_pure _
  case h_14 => exact faithful_refuse inQuestion _

omit faithful in
theorem faithful_memberName :
    Faithful tokens stop Rules.memberName := by
  refine Faithful.peek fun token inQuestion => ?_
  split
  · exact faithful_advance.bind fun _ => faithful_pure _
  · exact faithful_advance.bind fun _ => faithful_pure _
  · exact faithful_refuse inQuestion _

/-- Suffixes have positions of their own tokens only. -/
theorem faithful_suffix
    {token : Token}
    {extension : Expr → Parse Expr}
    (found : rules.suffix? token = some extension)
    (subject : Expr) :
    Faithful tokens stop (extension subject) := by
  unfold Rules.suffix? at found
  split at found
  case h_1 =>
    cases found
    exact (faithful_listUpTo faithful.expression _ _).bind fun arguments => faithful_pure _
  case h_2 =>
    cases found
    exact faithful_memberName.bind fun key => faithful_pure _
  case h_3 =>
    cases found
    refine faithful_skipNewlines.bind fun _ => faithful.expression.bind fun key => ?_
    exact faithful_skipNewlines.bind fun _ => (faithful_expect _ _).bind fun _ => faithful_pure _
  case h_4 => cases found

theorem faithful_callOrMember :
    Faithful tokens stop rules.callOrMember :=
  (faithful_primary faithful).bind fun subject =>
    faithful_extend (fun _ _ found => faithful_suffix faithful found) subject

/-- Unary expressions have positions of their own tokens only. -/
theorem faithful_unaryForm :
    Faithful tokens stop rules.unaryForm := by
  refine Faithful.peek fun sign _ => ?_
  split
  · exact faithful_advance.bind fun _ => faithful.unary.bind fun operand => faithful_pure _
  · refine (faithful_callOrMember faithful).bind fun operand => Faithful.peek fun sign _ => ?_
    split
    · exact faithful_advance.bind fun _ => faithful_pure _
    · exact faithful_pure operand

omit faithful in
/-- Chains of operators have positions of their own tokens only. -/
theorem faithful_chain
    {operand : Parse Expr}
    (operandFaithful : Faithful tokens stop operand)
    (operation? : Token → Option (Position → Expr → Expr → Expr)) :
    Faithful tokens stop (Rules.chain operand operation?) := by
  refine operandFaithful.bind fun first => faithful_extend ?_ first
  intro token extension found left
  rw [Option.map_eq_some_iff] at found
  obtain ⟨operation, _, rfl⟩ := found
  exact operandFaithful.bind fun right => faithful_pure _

theorem faithful_logical :
    Faithful tokens stop rules.logical :=
  faithful_chain (faithful_chain (faithful_chain (faithful_chain (faithful_chain
    (faithful_unaryForm faithful) _) _) _) _) _

/-- Ternary expressions have positions of their own tokens only. -/
theorem faithful_ternaryForm :
    Faithful tokens stop rules.ternaryForm := by
  refine (faithful_logical faithful).bind fun test => (faithful_accept _).bind fun chooses => ?_
  refine .ite ?_ (faithful_pure test)
  refine (faithful_logical faithful).bind fun consequent => (faithful_expect _ _).bind fun _ => ?_
  exact faithful.ternary.bind fun alternate => faithful_pure _

theorem faithful_alternative :
    Faithful tokens stop rules.alternative := by
  refine (faithful_check _).bind fun isBranch => .ite ?_ ?_
  · exact faithful.branch.bind fun branch => faithful_pure [branch]
  · refine (faithful_check _).bind fun isBlock => .ite (faithful_block faithful) ?_
    refine (faithful_accept _).bind fun _ => ?_
    exact faithful.statement.bind fun statement => faithful_pure [statement]

/-- Branches have positions of their own tokens only. -/
theorem faithful_branchForm :
    Faithful tokens stop rules.branchForm := by
  refine faithful_advance.bind fun keyword => faithful.expression.bind fun test => ?_
  refine (faithful_body faithful _).bind fun consequent => ?_
  refine (faithful_acceptPastNewlines _).bind fun hasElse => .ite ?_ ?_
  · exact (faithful_alternative faithful).bind fun alternate => faithful_pure _
  · exact (faithful_pure []).bind fun alternate => faithful_pure _

theorem faithful_whileForm :
    Faithful tokens stop rules.whileForm := by
  refine faithful_advance.bind fun keyword => faithful.expression.bind fun test => ?_
  exact (faithful_body faithful _).bind fun body => faithful_pure _

/-- Loops have positions of their own tokens only. -/
theorem faithful_forForm :
    Faithful tokens stop rules.forForm := by
  refine faithful_advance.bind fun keyword => faithful.expression.bind fun start => ?_
  refine (faithful_expect _ _).bind fun _ => faithful.expression.bind fun test => ?_
  refine (faithful_expect _ _).bind fun _ => faithful.expression.bind fun update => ?_
  exact (faithful_block faithful).bind fun body => faithful_pure _

theorem faithful_returnForm :
    Faithful tokens stop rules.returnForm := by
  refine faithful_advance.bind fun keyword => Faithful.peek fun next _ => ?_
  exact .ite (faithful_pure _) (faithful.expression.bind fun value => faithful_pure _)

theorem faithful_debugForm :
    Faithful tokens stop rules.debugForm := by
  refine faithful_advance.bind fun keyword => (faithful_accept _).bind fun listed => .ite ?_ ?_
  · exact (faithful_listUpTo faithful.expression _ _).bind fun values => faithful_pure _
  · exact faithful.expression.bind fun value => faithful_pure _

omit faithful in
theorem faithful_useForm :
    Faithful tokens stop Rules.useForm :=
  faithful_advance.bind fun _ => (faithful_expect _ _).bind fun _ => faithful_pure _

theorem faithful_exportForm :
    Faithful tokens stop rules.exportForm := by
  refine faithful_advance.bind fun keyword => (faithful_check _).bind fun isFunction => ?_
  refine .ite ?_ (faithful_refuse_next _)
  exact (faithful_function faithful true).bind fun function => faithful_pure _

end Forms

/-! ## Targets of declarations -/

/-- An expression has the position of one of its tokens. -/
def Form.Placed : (form : Form) → List Token → form.Tree → Prop
  | .expression _, used | .operations _, used | .accesses, used | .function _, used =>
    fun value => ∃ token ∈ used, value.position = token.position
  | _, _ => fun _ => True

/-- An operation stands where its operator does. -/
theorem position_operation
    {chain : Chain}
    {sign : Token}
    {operation : Position → Expr → Expr → Expr}
    (found : chain.operation? sign = some operation)
    (position : Position)
    (left right : Expr) :
    (operation position left right).position = position := by
  obtain ⟨op, rfl⟩ | ⟨op, rfl⟩ := Chain.exists_of_operation? found <;> rfl

/-- An operation in front of its operand stands where its operator does. -/
theorem position_leading
    {sign : Token}
    {operation : Expr → Expr}
    (found : Rules.leading? sign = some operation)
    (operand : Expr) :
    (operation operand).position = sign.position := by
  obtain ⟨op, rfl⟩ | ⟨op, rfl⟩ := exists_of_leading? found <;> rfl

/-- A tree that is derived stands where one of its tokens does. -/
theorem Derives.placed
    {form : Form}
    {used next : List Token}
    {tree : form.Tree}
    (derives : Derives form used tree next) :
    form.Placed used tree := by
  -- An operation stands where its first operand does, every other expression at a token of its own.
  have first
      {used more : List Token}
      {position : Position}
      (placed : ∃ token ∈ used, position = token.position) :
      ∃ token ∈ used ++ more, position = token.position := by
    obtain ⟨token, mem, same⟩ := placed
    exact ⟨token, List.mem_append_left _ mem, same⟩
  induction derives with
  | assign _ _ _ target _ | compoundAssign _ _ _ target _ => exact first target
  | declare _ _ _ _ _ target _ => exact first target
  | choice _ _ _ _ _ test _ _ => exact first test
  | operation _ found _ left _ =>
    obtain ⟨token, mem, same⟩ := first left
    exact ⟨token, mem, (position_operation found _ _ _).trans same⟩
  | leading found _ _ => exact ⟨_, List.mem_cons_self, position_leading found _⟩
  | trailing _ _ operand => exact first operand
  | call _ _ _ callee _ => exact first callee
  | member _ _ _ subject => exact first subject
  | index _ _ _ _ _ _ subject _ => exact first subject
  | grouped _ _ _ _ _ value =>
    obtain ⟨token, mem, same⟩ := value
    exact ⟨token, by simp [mem], same⟩
  | unassigned _ _ placed | unchosen _ _ placed | operand _ placed | chain _ _ placed
  | unstepped _ _ placed | suffixed _ _ placed | subject _ placed | lambda _ placed => exact placed
  | name | number | text | truth | falsehood | undefined | typeof | array | object
  | calledOnTheSpot | betweenColons | named | unnamed => exact ⟨_, List.mem_cons_self, rfl⟩
  | _ => trivial

section Assignment

variable {rules : Rules}

/-- Assignments have positions of their own tokens only, those of their targets included. -/
theorem faithful_assignment
    (sound : RulesSound rules)
    (stopEnds : stop.kind = .eof)
    (faithful : RulesFaithful tokens stop rules) :
    Faithful tokens stop rules.assignment := by
  intro ahead inQuestion
  apply (faithful_ternaryForm faithful ahead inQuestion).bind
  intro target rest targetRead left
  obtain ⟨used, split, derives⟩ := ternaryForm_sound sound stopEnds targetRead
  obtain ⟨token, mem, place⟩ := derives.placed
  have known : token ∈ tokens := by
    apply inQuestion
    simp [split, mem]
  have refusal :
      Faithful tokens stop
        (fun _ _ =>
          .error
            { stage := .parser
              message := "invalid declaration target"
              position := some target.position
              notes := ["only a plain name can be declared, e.g. `x: var = 1`"] } :
            Parse Expr) := by
    intro ahead _
    exact ⟨rfl, rfl, token, known, congrArg some place, .inr ⟨rfl, rfl⟩⟩
  refine Faithful.bind (faithful_accept _) (fun assigns => ?_) rest
    (subset_of_suffix inQuestion left)
  refine .ite (faithful.expression.bind fun value => faithful_pure _) ?_
  refine Faithful.peek fun sign _ => ?_
  split
  · exact faithful_advance.bind fun _ => faithful.expression.bind fun value => faithful_pure _
  · refine faithful_declarationAhead.bind fun declares => ?_
    split
    · exact faithful_pure target
    · cases target with
      | name =>
        refine faithful_advance.bind fun _ => faithful_advance.bind fun _ => ?_
        exact faithful_advance.bind fun _ => faithful.expression.bind fun value => faithful_pure _
      | _ => exact refusal

theorem faithful_bareStatement
    (sound : RulesSound rules)
    (stopEnds : stop.kind = .eof)
    (faithful : RulesFaithful tokens stop rules) :
    Faithful tokens stop rules.bareStatement := by
  refine Faithful.peek fun next _ => ?_
  split
  · exact faithful_branchForm faithful
  · exact faithful_whileForm faithful
  · exact faithful_forForm faithful
  · exact faithful_returnForm faithful
  · exact faithful_debugForm faithful
  · exact faithful_useForm
  · exact faithful_exportForm faithful
  · exact (faithful_assignment sound stopEnds faithful).bind fun value => faithful_pure _

theorem faithful_statementForm
    (sound : RulesSound rules)
    (stopEnds : stop.kind = .eof)
    (faithful : RulesFaithful tokens stop rules) :
    Faithful tokens stop rules.statementForm := by
  refine (faithful_bareStatement sound stopEnds faithful).bind fun statement => ?_
  exact (faithful_accept _).bind fun _ => faithful_pure statement

/-! ## All rules -/

theorem faithful_empty :
    RulesFaithful tokens stop Rules.empty := by
  have refuses {α : Type} :
      Faithful tokens stop (fun stop => refuseUnexpected stop stop : Parse α) := by
    intro ahead inQuestion
    exact faithful_refuse (inQuestion List.mem_cons_self) _ ahead inQuestion
  exact ⟨refuses, refuses, refuses, refuses, refuses⟩

theorem faithful_next
    (sound : RulesSound rules)
    (stopEnds : stop.kind = .eof)
    (faithful : RulesFaithful tokens stop rules) :
    RulesFaithful tokens stop rules.next where
  expression := faithful_assignment sound stopEnds faithful
  ternary := faithful_ternaryForm faithful
  unary := faithful_unaryForm faithful
  statement := faithful_statementForm sound stopEnds faithful
  branch := faithful_branchForm faithful

/-- Rules of any depth are faithful. -/
theorem faithful_upTo
    (stopEnds : stop.kind = .eof)
    (count : Nat) :
    RulesFaithful tokens stop (Rules.upTo count) := by
  induction count with
  | zero => exact faithful_empty
  | succ count ih => exact faithful_next (upTo_sound count) stopEnds ih

end Assignment

/-! ## Sources -/

/-- Tokens that are no program are refused for one of them, or for their end. -/
theorem blames_of_ofTokens
    {tokens : List Token}
    {diagnostic : Diagnostic}
    (refused : Program.ofTokens tokens = .error diagnostic) :
    Blames (Program.endToken tokens :: Program.tokensAhead tokens) diagnostic := by
  have rules :
      RulesFaithful (Program.endToken tokens :: Program.tokensAhead tokens)
        (Program.endToken tokens) (Rules.upTo (Program.tokensAhead tokens).length) :=
    faithful_upTo (endToken_kind tokens) _
  have admits :=
    faithful_statements rules.statement (·.kind == .eof) _ (List.Subset.refl _)
  change Except.map _
    (Rules.statements (Rules.upTo (Program.tokensAhead tokens).length).statement
      (·.kind == .eof) (Program.endToken tokens) (Program.tokensAhead tokens)) = _ at refused
  generalize Rules.statements (Rules.upTo (Program.tokensAhead tokens).length).statement
      (·.kind == .eof) (Program.endToken tokens) (Program.tokensAhead tokens) = outcome
    at admits refused
  cases outcome with
  | error other =>
    cases refused
    exact admits
  | ok found => cases refused

end Grammar
end TinyScript
