import TinyScript.Proofs.Grammar.Completeness
import TinyScript.Proofs.Grammar.Placement
import TinyScript.Proofs.Grammar.Spacing

/-!
# Newlines at the bounds of lists

Tokens with newlines inserted inside the brackets of a list or of a value, around a comma or the
colon of a field, or before `else` are the same form (`Spaced.derivesAcross`).  A program with such
newlines inserted is therefore the same program.
-/

namespace TinyScript
namespace Grammar

open Token

/-! ## Forms -/

/-- The tokens `used`, followed by the tokens `next`, are a form with the given tree.  An item may
go on over newlines at the beginning of `next`, as a field without a value does. -/
def DerivesAcross :
    (form : Form) → (used : List Token) → (tree : form.Tree) → (next : List Token) → Prop
  | .item entry, used, tree, next =>
    ∃ lines rest, next = lines ++ rest ∧ Newlines lines ∧
      Derives (.item entry) (used ++ lines) tree rest
  | form, used, tree, next => Derives form used tree next

/-- The tokens `next'` are those behind a form with newlines inserted, though none at the end of a
run of statements or behind a program. -/
def Form.SpacedBehind (next next' : List Token) : Form → Prop
  | .statements => Inserts next next' ∧ kindAhead next' = kindAhead next
  | .program => next' = next
  | _ => Inserts next next'

/-- An item that goes on over none of the newlines behind it. -/
theorem derivesAcross_of_item
    {entry : Item}
    {used next : List Token}
    {tree : entry.Tree}
    (derives : Derives (.item entry) used tree next) :
    DerivesAcross (.item entry) used tree next :=
  ⟨[], next, rfl, Newlines.nil, by rwa [List.append_nil]⟩

/-- The newlines between an item and the mark behind it can be shared out among the two. -/
theorem exists_newlines_of_derivesAcross
    {entry : Item}
    {used lines next : List Token}
    {tree : entry.Tree}
    {closing : Token}
    {mark : Mark}
    (across : DerivesAcross (.item entry) used tree (lines ++ closing :: next))
    (closingKind : closing.kind = .mark mark)
    (newlines : Newlines lines) :
    ∃ lines₁ lines₂, lines = lines₁ ++ lines₂ ∧ Newlines lines₂ ∧
      Derives (.item entry) (used ++ lines₁) tree (lines₂ ++ closing :: next) := by
  obtain ⟨lines₁, rest, split, newlines₁, derives⟩ := across
  rcases List.append_eq_append_iff.1 split with ⟨more, rfl, tail⟩ | ⟨lines₂, rfl, rfl⟩
  · -- The mark is no newline.
    cases more with
    | nil =>
      rw [List.nil_append] at tail
      subst tail
      rw [List.append_nil] at derives
      exact ⟨lines, [], (List.append_nil _).symm, Newlines.nil, derives⟩
    | cons line more =>
      obtain ⟨rfl, rfl⟩ := List.cons.inj tail
      have line := newlines₁ closing (List.mem_append_right _ List.mem_cons_self)
      rw [closingKind] at line
      cases line
  · have newlines₂ : Newlines lines₂ := fun line mem =>
      newlines line (List.mem_append_right _ mem)
    exact ⟨lines₁, lines₂, rfl, newlines₂, derives⟩

/-- With more newlines at those places a form is the same form, also where more of them follow. -/
theorem Spaced.derivesAcross
    {form : Form}
    {used spaced next next' : List Token}
    {tree : form.Tree}
    {original : Derives form used tree next}
    (isSpaced : Spaced original spaced)
    (behind : form.SpacedBehind next next') :
    DerivesAcross form spaced tree next' := by
  induction isSpaced generalizing next' with
  | @assign _ _ _ _ _ _ spaced₂ equals _ _ _ equalsKind valueSpaced target value =>
    have targetDerives := @target (equals :: (spaced₂ ++ next'))
      ((valueSpaced.inserts.append behind).prepend [equals])
    exact Derives.assign targetDerives equalsKind (value behind)
  | @compoundAssign _ _ _ _ _ _ spaced₂ sign _ _ _ _ signOperation valueSpaced target value =>
    have targetDerives := @target (sign :: (spaced₂ ++ next'))
      ((valueSpaced.inserts.append behind).prepend [sign])
    exact Derives.compoundAssign targetDerives signOperation (value behind)
  | @declare _ _ _ _ _ _ _ spaced₂ colon word equals _ _ _ _ colonKind wordFlavour equalsKind
      valueSpaced target value =>
    have targetDerives := @target (colon :: word :: equals :: (spaced₂ ++ next'))
      ((valueSpaced.inserts.append behind).prepend [colon, word, equals])
    exact Derives.declare targetDerives colonKind wordFlavour equalsKind (value behind)
  | unassigned _ ends value =>
    exact Derives.unassigned (value behind) (Inserts.endsLike behind |>.endsAssignment ends)
  | @choice _ _ _ _ _ _ _ _ spaced₂ spaced₃ question colon _ _ _ _ questionKind consequentSpaced
      colonKind alternateSpaced test consequent alternate =>
    have colonBehind := (alternateSpaced.inserts.append behind).prepend [colon]
    have testDerives := @test (question :: (spaced₂ ++ colon :: (spaced₃ ++ next')))
      ((consequentSpaced.inserts.append colonBehind).prepend [question])
    exact Derives.choice testDerives questionKind (consequent colonBehind) colonKind
      (alternate behind)
  | unchosen _ ends value =>
    exact Derives.unchosen (value behind) (Inserts.kindAhead_ne behind (by decide) ends)
  | operand _ value => exact Derives.operand (value behind)
  | @operation _ _ _ _ spaced₂ _ sign _ _ _ _ _ _ signOperation rightSpaced left right =>
    have leftDerives := @left (sign :: (spaced₂ ++ next'))
      ((rightSpaced.inserts.append behind).prepend [sign])
    exact Derives.operation leftDerives signOperation (right behind)
  | chain _ ends value =>
    exact Derives.chain (value behind) (Inserts.endsLike behind |>.endsChain ends)
  | leading signOperation _ operand => exact Derives.leading signOperation (operand behind)
  | @trailing _ _ _ _ sign _ _ _ signOperation operand =>
    exact Derives.trailing (operand (Inserts.prepend behind [sign])) signOperation
  | unstepped _ ends value =>
    exact Derives.unstepped (value behind) (Inserts.endsLike behind |>.endsSteps ends)
  | suffixed _ ends value =>
    exact Derives.suffixed (value behind) (Inserts.endsLike behind |>.endsAccesses ends)
  | subject _ value => exact Derives.subject (value behind)
  | @call _ _ _ _ _ _ spaced₂ opening _ _ _ openingKind argumentsSpaced callee arguments =>
    have calleeDerives := @callee (opening :: (spaced₂ ++ next'))
      ((argumentsSpaced.inserts.append behind).prepend [opening])
    exact Derives.call calleeDerives openingKind (arguments behind)
  | @member _ _ _ _ dot key _ _ dotKind keyKind subject =>
    exact Derives.member (subject (Inserts.prepend behind [dot, key])) dotKind keyKind
  | @index _ _ _ _ _ _ _ _ lines₁ spaced₂ lines₂ opening closing _ _ _ openingKind newlinesBefore
      insertsBefore keySpaced newlinesBehind insertsBehind closingKind subject key =>
    have closed : Inserts (closing :: _) (closing :: next') := Inserts.prepend behind [closing]
    have keyBehind := insertsBehind.append closed
    have subjectDerives := @subject (opening :: (lines₁ ++ spaced₂ ++ lines₂ ++ closing :: next'))
      ((((insertsBefore.append keySpaced.inserts).append insertsBehind).append closed).prepend
        [opening])
    exact Derives.index subjectDerives openingKind (insertsBefore.newlines newlinesBefore)
      (key keyBehind) (insertsBehind.newlines newlinesBehind) closingKind
  | name kind => exact Derives.name kind
  | number kind reads => exact Derives.number kind reads
  | text kind => exact Derives.text kind
  | truth kind => exact Derives.truth kind
  | falsehood kind => exact Derives.falsehood kind
  | undefined kind => exact Derives.undefined kind
  | typeof keywordKind _ operand => exact Derives.typeof keywordKind (operand behind)
  | lambda _ value => exact Derives.lambda (value behind)
  | @grouped _ _ _ _ _ _ _ _ _ closing _ openingKind newlinesBefore insertsBefore _ newlinesBehind
      insertsBehind closingKind value =>
    have valueDerives := value (insertsBehind.append (Inserts.prepend behind [closing]))
    exact Derives.grouped openingKind (insertsBefore.newlines newlinesBefore) valueDerives
      (insertsBehind.newlines newlinesBehind) closingKind
  | array openingKind _ items => exact Derives.array openingKind (items behind)
  | object openingKind _ fields => exact Derives.object openingKind (fields behind)
  | calledOnTheSpot keywordKind colonKind₁ colonKind₂ _ value =>
    exact Derives.calledOnTheSpot keywordKind colonKind₁ colonKind₂ (value behind)
  | @betweenColons _ _ _ _ _ _ _ _ _ _ colon₂ _ _ keywordKind colonKind₁ parametersSpaced
      parametersSpelled colonKind₂ valueSpaced parameters value =>
    have parametersDerive := parameters ((valueSpaced.inserts.append behind).prepend [colon₂])
    exact Derives.betweenColons keywordKind colonKind₁ parametersDerive
      (parametersSpaced.inserts.ne_nil parametersSpelled) colonKind₂ (value behind)
  | named keywordKind nameKind _ bodySpaced parameters body =>
    exact Derives.named keywordKind nameKind (parameters (bodySpaced.inserts.append behind))
      (body behind)
  | unnamed keywordKind noColon parametersSpaced bodySpaced parameters body =>
    have inserts := parametersSpaced.inserts.append bodySpaced.inserts
    have noName := keywordKind.imp_left (And.imp_right (inserts.kindAhead_ne (by decide)))
    exact Derives.unnamed noName (inserts.kindAhead_ne (by decide) noColon)
      (parameters (bodySpaced.inserts.append behind)) (body behind)
  | functionBlock _ block => exact Derives.functionBlock (block behind)
  | functionValue colonKind _ value => exact Derives.functionValue colonKind (value behind)
  | listedParameters openingKind _ parameters =>
    exact Derives.listedParameters openingKind (parameters behind)
  | unlistedParameters noList parametersSpaced parameters =>
    have noList' := (parametersSpaced.inserts.append behind).kindAhead_ne (by decide) noList
    exact Derives.unlistedParameters noList' (parameters behind)
  | noParameters ends => exact Derives.noParameters (Inserts.kindAhead_ne behind (by decide) ends)
  | requiredParameters nameKind noDefault othersSpaced others =>
    have noDefault' := (othersSpaced.inserts.append behind).kindAhead_ne (by decide) noDefault
    exact Derives.requiredParameters nameKind noDefault' (others behind)
  | @optionalParameters _ _ _ _ _ _ _ _ _ _ closing _ _ nameKind equalsKind openingKind _
      closingKind othersSpaced default others =>
    have defaultDerives := default ((othersSpaced.inserts.append behind).prepend [closing])
    exact Derives.optionalParameters nameKind equalsKind openingKind defaultDerives closingKind
      (others behind)
  | value _ value => exact derivesAcross_of_item (.value (value behind))
  | field keyKind newlinesBefore insertsBefore colonKind newlinesBehind insertsBehind _ value =>
    exact derivesAcross_of_item <| .field keyKind (insertsBefore.newlines newlinesBefore) colonKind
      (insertsBehind.newlines newlinesBehind) (value behind)
  | @shorthand next _ _ _ keyKind newlinesBehind insertsBehind ends =>
    -- The newlines inserted behind the field are those between its key and the mark behind it.
    obtain ⟨lines, rest, rfl, newlines, noLine, dropped⟩ := exists_newlines next'
    have noNewline : kindAhead next ≠ .newline := by
      rcases ends with mark | mark <;> simp [mark]
    have same := Inserts.kindAhead_dropWhile behind
    rw [dropped, ← List.nil_append next, dropWhile_newlines Newlines.nil noNewline] at same
    exact ⟨lines, rest, rfl, newlines, .shorthand keyKind
      (List.forall_mem_append.2 ⟨insertsBehind.newlines newlinesBehind, newlines⟩) (same ▸ ends)⟩
  | requiredParameter nameKind noDefault =>
    exact derivesAcross_of_item <| .requiredParameter nameKind
      (Inserts.kindAhead_ne behind (by decide) noDefault)
  | optionalParameter nameKind equalsKind _ default =>
    exact derivesAcross_of_item <| .optionalParameter nameKind equalsKind (default behind)
  | list newlinesBefore insertsBefore _ items =>
    exact Derives.list (insertsBefore.newlines newlinesBefore) (items behind)
  | noItems closingKind => exact Derives.noItems closingKind
  | @lastItem _ _ _ _ _ _ _ closing _ _ _ newlinesBehind insertsBehind closingKind last =>
    obtain ⟨lines₁, lines₂, rfl, newlines₂, lastDerives⟩ := exists_newlines_of_derivesAcross
      (last (insertsBehind.append (Inserts.prepend behind [closing]))) closingKind
      (insertsBehind.newlines newlinesBehind)
    rw [← List.append_assoc]
    exact Derives.lastItem lastDerives newlines₂ closingKind
  | @moreItems _ _ _ _ _ _ _ _ lines₂ spaced₂ _ comma _ _ _ _ _ newlinesBefore insertsBefore
      commaKind newlinesBehind insertsBehind othersSpaced first others =>
    have commaBehind := ((insertsBehind.append othersSpaced.inserts).append behind).prepend [comma]
    obtain ⟨newlines₁, newlines₂, rfl, areNewlines, firstDerives⟩ :=
      exists_newlines_of_derivesAcross (first (insertsBefore.append commaBehind)) commaKind
        (insertsBefore.newlines newlinesBefore)
    rw [← List.append_assoc]
    exact Derives.moreItems firstDerives areNewlines commaKind
      (insertsBehind.newlines newlinesBehind) (others behind)
  | @block _ _ _ _ _ _ closing _ openingKind separated _ closingKind statements =>
    have statementsDerive := @statements (closing :: next')
      ⟨Inserts.prepend behind [closing], rfl⟩
    exact Derives.block openingKind separated statementsDerive closingKind
  | bodyBlock _ block => exact Derives.bodyBlock (block behind)
  | bodyStatement colonKind _ statement => exact Derives.bodyStatement colonKind (statement behind)
  | noStatements ends => exact Derives.noStatements (behind.2 ▸ ends)
  | moreStatements _ separated othersSpaced first others =>
    have firstDerives := first (((Inserts.refl _).append othersSpaced.inserts).append behind.1)
    exact Derives.moreStatements firstDerives separated (others behind)
  | @ended _ _ _ _ semicolon _ _ semicolonKind statement =>
    exact Derives.ended (statement (Inserts.prepend behind [semicolon])) semicolonKind
  | unended _ noSemicolon statement =>
    exact Derives.unended (statement behind) (Inserts.kindAhead_ne behind (by decide) noSemicolon)
  | branchStatement _ branch => exact Derives.branchStatement (branch behind)
  | whileLoop keywordKind _ bodySpaced test body =>
    exact Derives.whileLoop keywordKind (test (bodySpaced.inserts.append behind)) (body behind)
  | @forLoop _ _ _ _ _ _ _ _ _ _ _ spaced₃ spaced₄ _ semicolon₁ semicolon₂ _ _ _ _ keywordKind _
      semicolonKind₁ testSpaced semicolonKind₂ updateSpaced bodySpaced start test update body =>
    have bodyBehind := bodySpaced.inserts.append behind
    have updateBehind : Inserts _ (semicolon₂ :: (spaced₃ ++ spaced₄ ++ next')) :=
      ((updateSpaced.inserts.append bodySpaced.inserts).append behind).prepend [semicolon₂]
    have startDerives := start ((testSpaced.inserts.append updateBehind).prepend [semicolon₁])
    exact Derives.forLoop keywordKind startDerives semicolonKind₁ (test updateBehind)
      semicolonKind₂ (update bodyBehind) (body behind)
  | returnValue keywordKind _ value => exact Derives.returnValue keywordKind (value behind)
  | returnNothing keywordKind ends =>
    refine Derives.returnNothing keywordKind ?_
    rcases Inserts.head behind with same | line
    · rwa [kindAhead_eq_of_head? same]
    · exact .inl line
  | debugList keywordKind openingKind _ values =>
    exact Derives.debugList keywordKind openingKind (values behind)
  | debugValue keywordKind noList valueSpaced value =>
    exact Derives.debugValue keywordKind
      (valueSpaced.inserts.kindAhead_ne (by decide) noList) (value behind)
  | use keywordKind pathKind => exact Derives.use keywordKind pathKind
  | exported keywordKind functionKind functionSpaced function =>
    have functionDerives : Derives (.function true) _ _ _ := function behind
    refine Derives.exported keywordKind ?_ functionDerives
    -- No function begins with a newline.
    rcases functionSpaced.inserts.head with same | line
    · rwa [kindAhead_eq_of_head? same]
    · have begins := functionDerives.begins
      rw [line] at begins
      cases begins
  | expressionStatement _ value => exact Derives.expressionStatement (value behind)
  | @ifElse _ _ _ _ _ _ _ _ _ _ _ _ _ otherwise _ _ _ keywordKind _ consequentSpaced newlinesBefore
      insertsBefore otherwiseKind alternateSpaced test consequent alternate =>
    have otherwiseBehind := (alternateSpaced.inserts.append behind).prepend [otherwise]
    have testDerives := test
      ((consequentSpaced.inserts.append insertsBefore).append otherwiseBehind)
    exact Derives.ifElse keywordKind testDerives
      (consequent (insertsBefore.append otherwiseBehind))
      (insertsBefore.newlines newlinesBefore) otherwiseKind (alternate behind)
  | ifOnly keywordKind _ consequentSpaced noElse test consequent =>
    refine Derives.ifOnly keywordKind (test (consequentSpaced.inserts.append behind))
      (consequent behind) ?_
    rwa [Inserts.kindAhead_dropWhile behind]
  | elseIf _ branch => exact Derives.elseIf (branch behind)
  | elseBlock _ block => exact Derives.elseBlock (block behind)
  | elseColon colonKind _ statement => exact Derives.elseColon colonKind (statement behind)
  | elseStatement noBranch noBlock statementSpaced statement =>
    have inserts := statementSpaced.inserts
    exact Derives.elseStatement (inserts.kindAhead_ne (by decide) noBranch)
      (inserts.kindAhead_ne (by decide) noBlock) (statement behind)
  | program separated _ statements =>
    subst behind
    exact Derives.program separated (statements ⟨.nil, rfl⟩)

/-! ## Programs -/

/-- A program with newlines inserted at those places, wherever its tokens are then placed, is the
same program up to positions. -/
theorem ofTokens_spaced
    {tokens others spaced : List Token}
    {program : Program}
    (accepted : Program.ofTokens tokens = .ok program)
    (isSpaced : Spaced (ofTokens_sound accepted) spaced)
    (placed : (Program.tokensAhead others).map Token.erase = spaced.map Token.erase) :
    ∃ program', Program.ofTokens others = .ok program' ∧ program'.erase = program.erase := by
  have derives : Derives .program spaced program [] := isSpaced.derivesAcross rfl
  obtain ⟨program', derives', same⟩ := derives.moved _ [] placed rfl
  exact ⟨program', ofTokens_of_derives derives', same⟩

/-- `debug {a, b}` is the same program with newlines behind the opening brace, on both sides of the
comma and before the closing brace. -/
theorem ofTokens_spaced_of_debug :
    let line : Token := { kind := .newline, lexeme := "\n", position := .start }
    let tokens := [ofWord "debug", ofMark .openBrace, ofWord "a", ofMark .comma, ofWord "b",
      ofMark .closeBrace]
    let others := [ofWord "debug", ofMark .openBrace, line, ofWord "a", line, ofMark .comma, line,
      line, ofWord "b", line, ofMark .closeBrace]
    ∃ program program', Program.ofTokens tokens = .ok program ∧
      Program.ofTokens others = .ok program' ∧ program'.erase = program.erase := by
  intro line tokens others
  have value (word : String) (kind : (ofWord word).kind = .identifier) (next : List Token)
      (ends : endsValue (kindAhead next) = true) :
      Derives (.item .value) [ofWord word] (.name .start word) next :=
    .value ((Derives.name kind).loosen (Nat.zero_le _) (follows_of_endsValue ends _))
  have a := value "a" rfl (tokens.drop 3) rfl
  have b := value "b" rfl (tokens.drop 5) rfl
  have last : Derives (.items .closeBrace .value) ([ofWord "b"] ++ [] ++ [ofMark .closeBrace])
      [.name .start "b"] [] :=
    .lastItem b Newlines.nil rfl
  have items : Derives (.items .closeBrace .value)
      ([ofWord "a"] ++ [] ++ ofMark .comma :: ([] ++ tokens.drop 4))
      [.name .start "a", .name .start "b"] [] :=
    .moreItems a Newlines.nil rfl Newlines.nil last
  have list : Derives (.list .closeBrace .value) ([] ++ tokens.drop 2)
      [.name .start "a", .name .start "b"] [] :=
    .list Newlines.nil items
  have debug : Derives .bareStatement tokens
      (.debug .start [.name .start "a", .name .start "b"]) [] :=
    .debugList rfl rfl list
  have statements : Derives .statements (tokens ++ [] ++ [])
      [.debug .start [.name .start "a", .name .start "b"]] [] :=
    .moreStatements (.unended debug (by decide)) Separators.nil (.noStatements (.inr rfl))
  have one : Inserts [] [line] := .newline rfl .nil
  have two : Inserts [] [line, line] := .newline rfl one
  have lastSpaced : Spaced last ([ofWord "b"] ++ [line] ++ [ofMark .closeBrace]) :=
    .lastItem (.refl b) Newlines.nil one rfl
  have itemsSpaced : Spaced items
      ([ofWord "a"] ++ [line] ++ ofMark .comma :: ([line, line] ++ others.drop 8)) :=
    .moreItems (.refl a) Newlines.nil one rfl Newlines.nil two lastSpaced
  have listSpaced : Spaced list ([line] ++ others.drop 3) :=
    .list Newlines.nil one itemsSpaced
  have debugSpaced : Spaced debug others := .debugList rfl rfl listSpaced
  have statementsSpaced : Spaced statements (others ++ [] ++ []) :=
    .moreStatements (.unended debugSpaced (by decide)) Separators.nil (.noStatements (.inr rfl))
  have accepted := @ofTokens_of_derives tokens _ (.program Separators.nil statements)
  obtain ⟨program', accepted', same⟩ := @ofTokens_spaced tokens others _ _ accepted
    (.program Separators.nil statementsSpaced) rfl
  exact ⟨_, program', accepted, accepted', same⟩

end Grammar
end TinyScript
