import TinyScript.Proofs.Grammar.Brackets
import TinyScript.Proofs.Grammar.Faults
import TinyScript.Proofs.Syntax.Parts

/-!
# Positions in the order of the source

Every construct sets the position of its node by hand: from the keyword, the bracket or the
operator it begins with, or from its leftmost operand.  `InOrder tokens nodes` says that this
agrees with the tokens: the nodes start at some of them, one behind the other, and so do the items
of every list in them.  Each production has the nodes of its parts in order (`Derives.inOrder`),
which needs no more than a lemma for nodes behind a token of their own (`InOrder.headed`) and one
for nodes that begin with an operand (`InOrder.behind`).  For tokens at increasing offsets this
orders the offsets of a program's nodes (`positions_follow_tokens`).
-/

namespace TinyScript
namespace Grammar

/-! ## Nodes and tokens -/

/-- Where tokens stand. -/
def places (tokens : List Token) : List Position :=
  tokens.map (·.position)

/-- A node does not start before a place: it starts there, or at a token behind one there. -/
def NotBefore (tokens : List Token) (start : Position) (node : Node) : Prop :=
  ∀ place, node.position? = some place →
    place = start ∨ [start, place].Sublist (places tokens)

/-- A node starts where its tokens say. -/
structure Anchored (tokens : List Token) (node : Node) : Prop where
  /-- It starts at a token, which is no parenthesis around it. -/
  placed : ∀ place, node.position? = some place →
    ∃ token ∈ tokens, token.kind ≠ .mark .openParen ∧ token.position = place
  /-- Nothing in it starts before it. -/
  ordered : ∀ start, node.position? = some start → node.Throughout (NotBefore tokens start)
  /-- The items of each of its lists start at tokens one behind the other. -/
  rows : ∀ row ∈ node.rows, row.Sublist (places tokens)
  /-- If it begins with an operand it starts where that does. -/
  leftmost : ∀ operand ∈ node.leftmost?, node.position? = some operand.position
  /-- If it declares a name it starts at that name. -/
  declared : ∀ name ∈ node.declared?, ∃ token ∈ tokens,
    token.kind = .identifier ∧ token.lexeme = name ∧ node.position? = some token.position

/-- Nodes start at tokens one behind the other, and everything in them starts where it should. -/
structure InOrder (tokens : List Token) (nodes : List Node) : Prop where
  anchored : ∀ node ∈ nodes, node.Throughout (Anchored tokens)
  starts : (nodes.filterMap Node.position?).Sublist (places tokens)

section More

variable {tokens more : List Token} (among : tokens.Sublist more)

include among

theorem NotBefore.mono
    {start : Position}
    {node : Node}
    (notBefore : NotBefore tokens start node) :
    NotBefore more start node :=
  fun place starts => (notBefore place starts).imp_right (·.trans (among.map _))

/-- A node that is anchored in some tokens is in more. -/
theorem Anchored.mono
    {node : Node}
    (anchored : Anchored tokens node) :
    Anchored more node where
  placed place starts :=
    let ⟨token, isIn, known⟩ := anchored.placed place starts
    ⟨token, among.subset isIn, known⟩
  ordered start starts := (anchored.ordered start starts).mono (·.mono among)
  rows row isRow := (anchored.rows row isRow).trans (among.map _)
  leftmost := anchored.leftmost
  declared name declares :=
    let ⟨token, isIn, known⟩ := anchored.declared name declares
    ⟨token, among.subset isIn, known⟩

theorem InOrder.mono
    {nodes : List Node}
    (inOrder : InOrder tokens nodes) :
    InOrder more nodes where
  anchored node isIn := (inOrder.anchored node isIn).mono (·.mono among)
  starts := inOrder.starts.trans (among.map _)

end More

theorem InOrder.nil :
    InOrder [] [] where
  anchored _ isIn := absurd isIn List.not_mem_nil
  starts := .slnil

section Runs

variable {tokens : List Token} {nodes : List Node} (inOrder : InOrder tokens nodes)

include inOrder

/-- A further token in front leaves nodes in the order of their tokens. -/
theorem InOrder.cons
    (token : Token) :
    InOrder (token :: tokens) nodes :=
  inOrder.mono (List.sublist_cons_self ..)

/-- Further tokens in front leave nodes in the order of their tokens. -/
theorem InOrder.skip
    (skipped : List Token) :
    InOrder (skipped ++ tokens) nodes :=
  inOrder.mono (List.sublist_append_right ..)

/-- Further tokens behind leave nodes in the order of their tokens. -/
theorem InOrder.ended
    (skipped : List Token) :
    InOrder (tokens ++ skipped) nodes :=
  inOrder.mono (List.sublist_append_left ..)

/-- Nodes that are in order are so in front of others, whose tokens come later. -/
theorem InOrder.append
    {more : List Token}
    {others : List Node}
    (othersInOrder : InOrder more others) :
    InOrder (tokens ++ more) (nodes ++ others) where
  anchored node isIn := by
    rcases List.mem_append.1 isIn with isIn | isIn
    · exact (inOrder.ended more).anchored node isIn
    · exact (othersInOrder.skip tokens).anchored node isIn
  starts := by
    rw [List.filterMap_append, places, List.map_append]
    exact inOrder.starts.append othersInOrder.starts

/-- A list of a node with such parts has its items at tokens one behind the other. -/
theorem InOrder.row_sublist
    {node : Node}
    (parts : node.parts.Sublist nodes)
    {row : List Position}
    (isRow : row ∈ node.rows) :
    row.Sublist (places tokens) :=
  ((Node.rows_sublist isRow).trans (parts.filterMap _)).trans inOrder.starts

/-- Nodes behind a token do not start before it. -/
theorem InOrder.notBefore
    {before : List Token}
    {place : Position}
    (isBefore : place ∈ places before)
    {node : Node}
    (isIn : node ∈ nodes) :
    node.Throughout (NotBefore (before ++ tokens) place) := by
  refine (inOrder.anchored node isIn).mono fun anchored start starts => .inr ?_
  obtain ⟨token, isToken, -, rfl⟩ := anchored.placed start starts
  rw [places, List.map_append]
  exact (List.singleton_sublist.2 isBefore).append
    (List.singleton_sublist.2 (List.mem_map_of_mem isToken))

end Runs

/-! ## Nodes from their parts -/

/-- A node starts where it should if nothing in its parts starts before it. -/
theorem InOrder.single
    {tokens : List Token}
    {node : Node}
    {place : Position}
    (starts : node.position? = some place)
    (placed : ∃ token ∈ tokens, token.kind ≠ .mark .openParen ∧ token.position = place)
    (parts : ∀ part ∈ node.parts,
      part.Throughout (Anchored tokens) ∧ part.Throughout (NotBefore tokens place))
    (rows : ∀ row ∈ node.rows, row.Sublist (places tokens))
    (leftmost : ∀ operand ∈ node.leftmost?, operand.position = place)
    (declared : ∀ name ∈ node.declared?, ∃ token ∈ tokens,
      token.kind = .identifier ∧ token.lexeme = name ∧ token.position = place) :
    InOrder tokens [node] := by
  have here : NotBefore tokens place node := by
    intro other same
    exact .inl (Option.some.inj (same.symm.trans starts))
  have anchored : Anchored tokens node := by
    refine ⟨?_, ?_, rows, ?_, ?_⟩
    · intro other same
      obtain rfl := Option.some.inj (starts.symm.trans same)
      exact placed
    · intro other same
      obtain rfl := Option.some.inj (starts.symm.trans same)
      exact .of_parts here fun part isPart => (parts part isPart).2
    · intro operand isOperand
      rw [starts, leftmost operand isOperand]
    · intro name isName
      obtain ⟨token, isIn, kind, lexeme, rfl⟩ := declared name isName
      exact ⟨token, isIn, kind, lexeme, starts⟩
  refine ⟨List.forall_mem_singleton.2 (.of_parts anchored fun part isPart => (parts part isPart).1),
    ?_⟩
  obtain ⟨token, isIn, -, rfl⟩ := placed
  rw [List.filterMap_cons_some starts, List.filterMap_nil, List.singleton_sublist]
  exact List.mem_map.2 ⟨token, isIn, rfl⟩

/-- Nothing in a node starts before it. -/
theorem InOrder.notBefore_self
    {tokens : List Token}
    {node : Node}
    (inOrder : InOrder tokens [node])
    {place : Position}
    (starts : node.position? = some place) :
    node.Throughout (NotBefore tokens place) :=
  (inOrder.anchored node List.mem_cons_self).here.ordered place starts

/-- A node that begins with a token of its own, in front of all its parts. -/
theorem InOrder.headed
    {head : Token}
    {used : List Token}
    {nodes : List Node}
    (inOrder : InOrder used nodes)
    {node : Node}
    (starts : node.position? = some head.position)
    (noParenthesis : head.kind ≠ .mark .openParen)
    (parts : node.parts.Sublist nodes)
    (noOperand : node.leftmost? = none)
    (noName : node.declared? = none) :
    InOrder (head :: used) [node] := by
  have whole := inOrder.cons head
  refine .single starts ⟨head, List.mem_cons_self, noParenthesis, rfl⟩ ?_
    (fun row isRow => whole.row_sublist parts isRow) (by simp [noOperand]) (by simp [noName])
  intro part isPart
  have isIn := parts.subset isPart
  have isBefore : head.position ∈ places [head] := List.mem_singleton.2 rfl
  exact ⟨whole.anchored part isIn, inOrder.notBefore isBefore isIn⟩

/-- A node that begins with an operand, in front of its other parts. -/
theorem InOrder.behind
    {used₁ used₂ : List Token}
    {left : Expr}
    {nodes : List Node}
    (leftInOrder : InOrder used₁ [.expr left])
    (inOrder : InOrder used₂ nodes)
    {node : Node}
    (starts : node.position? = some left.position)
    (parts : node.parts.Sublist (.expr left :: nodes))
    (leftmost : ∀ operand ∈ node.leftmost?, operand = left)
    (declared : ∀ name ∈ node.declared?, ∃ token ∈ used₁,
      token.kind = .identifier ∧ token.lexeme = name ∧ token.position = left.position) :
    InOrder (used₁ ++ used₂) [node] := by
  have whole := leftInOrder.append inOrder
  have among := List.sublist_append_left used₁ used₂
  have leftAnchored := (leftInOrder.anchored _ (List.mem_singleton.2 rfl)).here
  obtain ⟨token, isIn, kind, place⟩ := leftAnchored.placed left.position rfl
  refine .single starts ⟨token, among.subset isIn, kind, place⟩ ?_
    (fun row isRow => whole.row_sublist parts isRow)
    (fun operand isOperand => by rw [leftmost operand isOperand]) ?_
  · intro part isPart
    have isPart := parts.subset isPart
    refine ⟨whole.anchored part isPart, ?_⟩
    rcases List.mem_cons.1 isPart with rfl | isPart
    · exact (leftInOrder.ended used₂).notBefore_self rfl
    · exact inOrder.notBefore (List.mem_map.2 ⟨token, isIn, place⟩) isPart
  · intro name isName
    obtain ⟨token, isIn, known⟩ := declared name isName
    exact ⟨token, among.subset isIn, known⟩

/-- A node that is one operand with tokens behind it. -/
theorem InOrder.sole
    {used : List Token}
    {left : Expr}
    (leftInOrder : InOrder used [.expr left])
    {node : Node}
    (starts : node.position? = some left.position)
    (parts : node.parts = [.expr left])
    (leftmost : ∀ operand ∈ node.leftmost?, operand = left)
    (noName : node.declared? = none) :
    InOrder used [node] := by
  have inOrder := leftInOrder.behind .nil starts (by simp [parts]) leftmost (by simp [noName])
  rwa [List.append_nil] at inOrder

/-- A function or a body starts nowhere itself. -/
theorem InOrder.unplaced
    {tokens : List Token}
    {node : Node}
    (inOrder : InOrder tokens node.parts)
    (nowhere : node.position? = none) :
    InOrder tokens [node] := by
  have noOperand : node.leftmost? = none := by cases node <;> first | rfl | cases nowhere
  have noName : node.declared? = none := by cases node <;> first | rfl | cases nowhere
  have anchored : Anchored tokens node := by
    refine ⟨by simp [nowhere], by simp [nowhere],
      fun row isRow => inOrder.row_sublist (.refl _) isRow, by simp [noOperand], by simp [noName]⟩
  exact ⟨List.forall_mem_singleton.2 (.of_parts anchored inOrder.anchored), by simp [nowhere]⟩

/-- The defaults of a function stand in front of its body. -/
theorem InOrder.function
    {used₁ used₂ : List Token}
    {parameters : List Parameter}
    {body : List Stmt}
    (defaultsInOrder : InOrder used₁ (parameters.flatMap Node.ofParameter))
    (statementsInOrder : InOrder used₂ (body.map .stmt))
    (name : Option String)
    (exported : Bool) :
    InOrder (used₁ ++ used₂)
      [.function
        { name := name, exported := exported, parameters := parameters, body := body }] := by
  have bodyInOrder : InOrder used₂ [.body body] := statementsInOrder.unplaced rfl
  exact (defaultsInOrder.append bodyInOrder).unplaced rfl

/-- A result stands where its value does. -/
theorem InOrder.returnBody
    {used : List Token}
    {value : Expr}
    (inOrder : InOrder used [.expr value]) :
    InOrder used ((Rules.returnBody value).map .stmt) := by
  have returned : InOrder used [.stmt (.returnValue value.position value)] :=
    inOrder.sole rfl rfl nofun rfl
  exact returned

/-- A function that is called where it is made and the call start at the same keyword. -/
theorem InOrder.calledOnTheSpot
    {used : List Token}
    {value : Expr}
    (inOrder : InOrder used [.expr value])
    {keyword : Token}
    (noParenthesis : keyword.kind ≠ .mark .openParen)
    (exported : Bool) :
    InOrder (keyword :: used)
      [.expr (.call keyword.position
        (.function keyword.position none exported [] (Rules.returnBody value)) [])] := by
  have noDefaults : InOrder [] (([] : List Parameter).flatMap Node.ofParameter) := .nil
  have made := noDefaults.function inOrder.returnBody none exported
  have callee : InOrder (keyword :: used)
      [.expr (.function keyword.position none exported [] (Rules.returnBody value))] :=
    made.headed rfl noParenthesis (.refl _) rfl rfl
  exact callee.sole rfl rfl (by simp [Node.leftmost?]) rfl

/-- An operation begins with its left operand, and has the right one behind it. -/
theorem operation_shape
    {chain : Chain}
    {sign : Token}
    {operation : Position → Expr → Expr → Expr}
    (found : chain.operation? sign = some operation)
    (position : Position)
    (left right : Expr) :
    (Node.expr (operation position left right)).parts = [.expr left, .expr right] ∧
      (Node.expr (operation position left right)).leftmost? = some left ∧
      (Node.expr (operation position left right)).declared? = none := by
  obtain ⟨op, rfl⟩ | ⟨op, rfl⟩ := Chain.exists_of_operation? found <;> exact ⟨rfl, rfl, rfl⟩

/-- An operator before its operand is in front of it. -/
theorem leading_shape
    {sign : Token}
    {operation : Expr → Expr}
    (found : Rules.leading? sign = some operation)
    (operand : Expr) :
    (Node.expr (operation operand)).parts = [.expr operand] ∧
      (Node.expr (operation operand)).leftmost? = none ∧
      (Node.expr (operation operand)).declared? = none := by
  obtain ⟨op, rfl⟩ | ⟨op, rfl⟩ := exists_of_leading? found <;> exact ⟨rfl, rfl, rfl⟩

/-- An operation is where its operator is, which lies between its operands. -/
theorem InOrder.operation
    {used₁ used₂ : List Token}
    {left right : Expr}
    (leftInOrder : InOrder used₁ [.expr left])
    (rightInOrder : InOrder used₂ [.expr right])
    {chain : Chain}
    {sign : Token}
    {operation : Position → Expr → Expr → Expr}
    (found : chain.operation? sign = some operation) :
    InOrder (used₁ ++ used₂) [.expr (operation left.position left right)] := by
  obtain ⟨parts, leftmost, noName⟩ := operation_shape found left.position left right
  exact leftInOrder.behind rightInOrder (congrArg some (position_operation found _ _ _))
    (by simp [parts]) (by simp [leftmost]) (by simp [noName])

/-- An operation in front of its operand is where its operator is. -/
theorem InOrder.leading
    {used : List Token}
    {operand : Expr}
    (inOrder : InOrder used [.expr operand])
    {sign : Token}
    {operation : Expr → Expr}
    (found : Rules.leading? sign = some operation) :
    InOrder (sign :: used) [.expr (operation operand)] := by
  obtain ⟨parts, noOperand, noName⟩ := leading_shape found operand
  exact inOrder.headed (congrArg some (position_leading found _))
    (ne_mark_of_leading found .openParen) (by simp [parts]) noOperand noName

/-- The target of a compound assignment is the left operand of the operation too. -/
theorem InOrder.compoundAssign
    {used₁ used₂ : List Token}
    {target value : Expr}
    (targetInOrder : InOrder used₁ [.expr target])
    (valueInOrder : InOrder used₂ [.expr value])
    (op : BinaryOp) :
    InOrder (used₁ ++ used₂)
      [.expr (.assign target.position target (.binary target.position op target value))] := by
  have assigned := targetInOrder.ended used₂
  have combined : InOrder (used₁ ++ used₂) [.expr (.binary target.position op target value)] :=
    targetInOrder.behind valueInOrder rfl (.refl _) (by simp [Node.leftmost?]) nofun
  have anchored := assigned.anchored _ List.mem_cons_self
  refine .single rfl (anchored.here.placed _ rfl) ?_ nofun
    (by simp [Node.leftmost?, Expr.position]) nofun
  -- Both parts start at the target, so they are no row.
  intro part isPart
  simp only [Node.parts, List.mem_cons, List.not_mem_nil, or_false] at isPart
  rcases isPart with rfl | rfl
  · exact ⟨anchored, assigned.notBefore_self rfl⟩
  · exact ⟨combined.anchored _ List.mem_cons_self, combined.notBefore_self rfl⟩

/-! ## Names -/

/-- A form that is a name is that of an identifier. -/
def Form.Named : (form : Form) → List Token → form.Tree → Prop
  | .expression _, used | .operations _, used | .accesses, used | .function _, used =>
    fun value => ∀ position name, value = .name position name → ∃ token ∈ used,
      token.kind = .identifier ∧ token.lexeme = name ∧ token.position = position
  | _, _ => fun _ => True

/-- Parentheses around a name leave it the name of its identifier. -/
theorem Derives.isNamed
    {form : Form}
    {used next : List Token}
    {tree : form.Tree}
    (derives : Derives form used tree next) :
    form.Named used tree := by
  induction derives with
  | name kind =>
    rintro _ _ ⟨⟩
    exact ⟨_, List.mem_cons_self, kind, rfl, rfl⟩
  | grouped _ _ _ _ _ value =>
    intro position name same
    obtain ⟨token, isIn, known⟩ := value position name same
    exact ⟨token, by simp [isIn], known⟩
  | unassigned _ _ named | unchosen _ _ named | operand _ named | chain _ _ named
  | unstepped _ _ named | suffixed _ _ named | subject _ named | lambda _ named => exact named
  | @operation _ _ _ _ _ _ left right _ found _ _ _ =>
    intro position name same
    have parts := (operation_shape found left.position left right).1
    rw [same] at parts
    cases parts
  | @leading _ _ _ _ operand found _ _ =>
    intro position name same
    have parts := (leading_shape found operand).1
    rw [same] at parts
    cases parts
  | assign | compoundAssign | declare | choice | trailing | call | member | index | number | text
  | truth | falsehood | undefined | typeof | array | object | calledOnTheSpot | betweenColons
  | named | unnamed => nofun
  | _ => trivial

/-! ## Derivations -/

/-- The nodes of an item. -/
def Item.nodes : (item : Item) → item.Tree → List Node
  | .value => fun value => [.expr value]
  | .field => fun field => [.expr field.value]
  | .parameter => Node.ofParameter

/-- The nodes of a form. -/
def Form.nodes : (form : Form) → form.Tree → List Node
  | .expression _ | .operations _ | .accesses | .function _ => fun value => [.expr value]
  | .parameters | .bareParameters => List.flatMap Node.ofParameter
  | .item entry => entry.nodes
  | .items _ entry | .list _ entry => List.flatMap entry.nodes
  | .functionBody | .block | .body | .statements | .alternative | .program => List.map .stmt
  | .statement | .bareStatement | .branch => fun statement => [.stmt statement]

theorem flatMap_nodes_value
    (values : List Expr) :
    values.flatMap Item.value.nodes = values.map .expr :=
  List.map_eq_flatMap.symm

theorem flatMap_nodes_field
    (fields : List Field) :
    fields.flatMap Item.field.nodes = fields.map (.expr ·.value) :=
  List.map_eq_flatMap.symm

/-- Every production has its nodes in the order of its tokens. -/
theorem Derives.inOrder
    {form : Form}
    {used next : List Token}
    {tree : form.Tree}
    (derives : Derives form used tree next) :
    InOrder used (form.nodes tree) := by
  -- Each case goes through the tokens of its production from behind: the parts are joined, the
  -- tokens between them are passed over, and what starts the production is put in front.
  induction derives with
  | assign _ _ _ target value =>
    exact target.behind (value.cons _) rfl (.refl _) (by simp [Node.leftmost?]) nofun
  | compoundAssign _ _ _ target value => exact target.compoundAssign (value.cons _) _
  | declare targetDerives _ _ _ _ target value =>
    refine target.behind (((value.cons _).cons _).cons _) rfl (List.sublist_cons_self ..) nofun ?_
    rintro _ ⟨⟩
    exact targetDerives.isNamed _ _ rfl
  | choice _ _ _ _ _ test consequent alternate =>
    exact test.behind ((consequent.append (alternate.cons _)).cons _) rfl (.refl _)
      (by simp [Node.leftmost?]) nofun
  | operation _ found _ left right => exact left.operation (right.cons _) found
  | leading found _ operand => exact operand.leading found
  | trailing _ _ operand =>
    exact (operand.ended _).sole rfl rfl (by simp [Node.leftmost?]) rfl
  | call _ _ _ callee arguments =>
    rw [Form.nodes, flatMap_nodes_value] at arguments
    exact callee.behind (arguments.cons _) rfl (.refl _) (by simp [Node.leftmost?]) nofun
  | member _ _ _ subject =>
    exact (subject.ended _).sole rfl rfl (by simp [Node.leftmost?]) rfl
  | index _ _ _ _ _ _ subject key =>
    exact subject.behind ((((key.skip _).ended _).ended _).cons _) rfl (.refl _)
      (by simp [Node.leftmost?]) nofun
  | name kind => exact InOrder.nil.headed rfl (by simp [kind]) (.refl _) rfl rfl
  | number kind _ =>
    exact InOrder.nil.headed rfl (by rcases kind with kind | kind <;> simp [kind]) (.refl _) rfl rfl
  | text kind => exact InOrder.nil.headed rfl (by simp [kind]) (.refl _) rfl rfl
  | truth kind | falsehood kind | undefined kind =>
    exact InOrder.nil.headed rfl (by simp [kind]) (.refl _) rfl rfl
  | typeof kind _ operand => exact operand.headed rfl (by simp [kind]) (.refl _) rfl rfl
  | grouped _ _ _ _ _ value => exact (((value.skip _).ended _).ended _).cons _
  | array kind _ items =>
    rw [Form.nodes, flatMap_nodes_value] at items
    exact items.headed rfl (by simp [kind]) (.refl _) rfl rfl
  | object kind _ fields =>
    rw [Form.nodes, flatMap_nodes_field] at fields
    exact fields.headed rfl (by simp [kind]) (.refl _) rfl rfl
  | calledOnTheSpot kind _ _ _ value =>
    refine ((value.cons _).cons _).calledOnTheSpot ?_ _
    rcases kind with kind | kind <;> simp [kind]
  | betweenColons kind _ _ _ _ _ parameters value =>
    refine ((parameters.function (value.returnBody.cons _) none _).cons _).headed rfl ?_ (.refl _)
      rfl rfl
    rcases kind with kind | kind <;> simp [kind]
  | named kind _ _ _ parameters body =>
    exact ((parameters.function body _ _).cons _).headed rfl (by simp [kind]) (.refl _) rfl rfl
  | unnamed kind _ _ _ parameters body =>
    refine (parameters.function body _ _).headed rfl ?_ (.refl _) rfl rfl
    rcases kind with ⟨kind, -⟩ | kind <;> simp [kind]
  | functionValue _ _ value => exact value.returnBody.cons _
  | listedParameters _ _ parameters => exact parameters.cons _
  | noParameters | noStatements => exact .nil
  | requiredParameters _ _ _ others => exact others.cons _
  | optionalParameters _ _ _ _ _ _ default others =>
    exact (((default.append (others.cons _)).cons _).cons _).cons _
  | field _ _ _ _ _ value => exact (((value.skip _).cons _).skip _).cons _
  | shorthand kind _ _ =>
    refine InOrder.ended (InOrder.nil.headed rfl ?_ (.refl _) rfl rfl) _
    rcases kind with kind | kind <;> simp [kind]
  | requiredParameter => exact InOrder.nil.cons _
  | optionalParameter _ _ _ default => exact (default.cons _).cons _
  | list _ _ items => exact items.skip _
  | noItems => exact InOrder.nil.cons _
  | lastItem _ _ _ last => exact (last.ended _).append (InOrder.nil.cons _)
  | moreItems _ _ _ _ _ first others =>
    exact (first.ended _).append ((others.skip _).cons _)
  | block _ _ _ _ statements => exact ((statements.skip _).ended _).cons _
  | bodyStatement _ _ statement => exact statement.cons _
  | moreStatements _ _ _ first others => exact (first.ended _).append others
  | ended _ _ statement => exact statement.ended _
  | whileLoop kind _ _ test body =>
    exact (test.append body).headed rfl (by simp [kind]) (.refl _) rfl rfl
  | forLoop kind _ _ _ _ _ _ start test update body =>
    exact (start.append ((test.append ((update.append body).cons _)).cons _)).headed rfl
      (by simp [kind]) (.refl _) rfl rfl
  | returnValue kind _ value => exact value.headed rfl (by simp [kind]) (.refl _) rfl rfl
  | returnNothing kind _ => exact InOrder.nil.headed rfl (by simp [kind]) (.refl _) rfl rfl
  | debugList kind _ _ values =>
    rw [Form.nodes, flatMap_nodes_value] at values
    exact (values.cons _).headed rfl (by simp [kind]) (.refl _) rfl rfl
  | debugValue kind _ _ value => exact value.headed rfl (by simp [kind]) (.refl _) rfl rfl
  | use kind _ => exact (InOrder.nil.cons _).headed rfl (by simp [kind]) (.refl _) rfl rfl
  | exported kind _ _ function => exact function.headed rfl (by simp [kind]) (.refl _) rfl rfl
  | expressionStatement _ value => exact value.sole rfl rfl nofun rfl
  | ifElse kind _ _ _ _ _ test consequent alternate =>
    exact (((test.append consequent).ended _).append (alternate.cons _)).headed rfl
      (by simp [kind]) (.refl _) rfl rfl
  | ifOnly kind _ _ _ test consequent =>
    exact (test.append consequent).headed rfl (by simp [kind])
      (by simp [Node.parts, Form.nodes]) rfl rfl
  | elseColon _ _ statement => exact statement.cons _
  | program _ _ statements => exact statements.skip _
  | unassigned _ _ nodes | unchosen _ _ nodes | operand _ nodes | chain _ _ nodes
  | unstepped _ _ nodes | suffixed _ _ nodes | subject _ nodes | lambda _ nodes
  | functionBlock _ nodes | unlistedParameters _ _ nodes | value _ nodes | bodyBlock _ nodes
  | unended _ _ nodes | branchStatement _ nodes | elseIf _ nodes | elseBlock _ nodes
  | elseStatement _ _ _ nodes => exact nodes

/-! ## Programs -/

/-- Every node of a program that tokens are starts where these say. -/
theorem inOrder_of_ofTokens
    {tokens : List Token}
    {program : Program}
    (ok : Program.ofTokens tokens = .ok program) :
    InOrder tokens [.body program] := by
  have ahead : InOrder (Program.tokensAhead tokens) [.body program] :=
    (ofTokens_sound ok).inOrder.unplaced rfl
  exact ahead.mono (List.takeWhile_sublist _)

/-- The positions of a program follow the source.  At tokens with increasing offsets every
expression and statement starts at a token that is no parenthesis around it, an operation at its
leftmost operand and a declaration at the name that it declares; nothing starts before what it
stands in, and the items of every list start one behind the other. -/
theorem positions_follow_tokens
    {tokens : List Token}
    (increasing : tokens.Pairwise fun earlier later =>
      earlier.position.offset < later.position.offset)
    {program : Program}
    (ok : Program.ofTokens tokens = .ok program)
    {node : Node}
    (isIn : (Node.body program).Contains node) :
    Anchored tokens node ∧
      (∀ start, node.position? = some start → node.Throughout fun inner =>
        ∀ place, inner.position? = some place → start.offset ≤ place.offset) ∧
      ∀ row ∈ node.rows, row.Pairwise fun earlier later => earlier.offset < later.offset := by
  have sorted : (places tokens).Pairwise fun earlier later => earlier.offset < later.offset :=
    List.pairwise_map.2 increasing
  have anchored : Anchored tokens node :=
    (inOrder_of_ofTokens ok).anchored _ List.mem_cons_self node isIn
  refine ⟨anchored, ?_, fun row isRow => sorted.sublist (anchored.rows row isRow)⟩
  intro start starts
  refine (anchored.ordered start starts).mono fun notBefore place isThere => ?_
  rcases notBefore place isThere with rfl | behind
  · exact Nat.le_refl _
  · have later : start.offset < place.offset := by simpa using sorted.sublist behind
    exact Nat.le_of_lt later

/-- In `(x): var = [a, b]` the declaration starts at its name, behind the parenthesis, and the list
and its items start behind that. -/
theorem positions_follow_tokens_of_declaration :
    let tokens : List Token :=
      [⟨.mark .openParen, "(", ⟨0, 0, 0⟩⟩, ⟨.identifier, "x", ⟨0, 1, 1⟩⟩,
        ⟨.mark .closeParen, ")", ⟨0, 2, 2⟩⟩, ⟨.mark .colon, ":", ⟨0, 3, 3⟩⟩,
        ⟨.identifier, "var", ⟨0, 5, 5⟩⟩, ⟨.sign .assign, "=", ⟨0, 9, 9⟩⟩,
        ⟨.mark .openBracket, "[", ⟨0, 11, 11⟩⟩, ⟨.identifier, "a", ⟨0, 12, 12⟩⟩,
        ⟨.mark .comma, ",", ⟨0, 13, 13⟩⟩, ⟨.identifier, "b", ⟨0, 15, 15⟩⟩,
        ⟨.mark .closeBracket, "]", ⟨0, 16, 16⟩⟩, ⟨.eof, "", ⟨0, 17, 17⟩⟩]
    let list : Expr := .array ⟨0, 11, 11⟩ [.name ⟨0, 12, 12⟩ "a", .name ⟨0, 15, 15⟩ "b"]
    let declaration : Expr := .declare ⟨0, 1, 1⟩ .var "x" list
    let program : Program := [.expr ⟨0, 1, 1⟩ declaration]
    Program.ofTokens tokens = .ok program ∧
      (Node.body program).Contains (.expr declaration) ∧
      Anchored tokens (.expr declaration) ∧
      (∀ start, (Node.expr declaration).position? = some start →
        (Node.expr declaration).Throughout fun inner =>
          ∀ place, inner.position? = some place → start.offset ≤ place.offset) ∧
      ∀ row ∈ (Node.expr declaration).rows,
        row.Pairwise fun earlier later => earlier.offset < later.offset := by
  intro tokens list declaration program
  have ok : Program.ofTokens tokens = .ok program := rfl
  have isIn : (Node.body program).Contains (.expr declaration) :=
    .head (.inl (.statement List.mem_cons_self)) (.single (.inl .value))
  exact ⟨ok, isIn, positions_follow_tokens (by decide) ok isIn⟩

end Grammar
end TinyScript
