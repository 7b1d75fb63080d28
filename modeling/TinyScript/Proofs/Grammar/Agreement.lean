import TinyScript.Proofs.Grammar.Faults
import TinyScript.Proofs.Grammar.Levels
import TinyScript.Proofs.Grammar.Productions

/-!
# Reading past the end of a source

A source ends at the first token that ends it, even if a list of tokens goes on behind that.
Reading the whole list and reading only the tokens before its first end come to the same, whatever
lies beyond the end and whatever would be seen beyond the list: every form finds the same result or
the same fault, and leaves the same tokens.

Where a form contains another one behind at least one token, the rules for that need to agree only
on shorter lists.  So rules agree on lists of any length if they are nested deeply enough.
-/

namespace TinyScript
namespace Grammar

open Parse

variable {α β : Type}

/-! ## Parsers that agree -/

/-- The first token that ends a source, the tokens beyond it in the same list, and the token that
would be seen beyond that list. -/
structure Seam where
  stop : Token
  beyond : List Token
  outside : Token
  ends : stop.kind = .eof

/-- Tokens none of which ends the source. -/
def Endless (tokens : List Token) : Prop :=
  ∀ token ∈ tokens, token.kind ≠ .eof

/-- A form that cannot be empty takes at least one token. -/
theorem Sound.moves
    {form : Form}
    {parser : Parse form.Tree}
    (sound : Sound form parser)
    (noEnd : form.begins .eof = false)
    {stop : Token}
    (stopEnds : stop.kind = .eof)
    {ahead rest : List Token}
    {tree : form.Tree}
    (read : parser stop ahead = .ok (tree, rest)) :
    rest.length < ahead.length := by
  obtain ⟨used, rfl, derives⟩ := sound stopEnds read
  have spelled := List.length_pos_iff.2 (derives.spelled noEnd)
  rw [List.length_append]
  omega

/-- What is left of tokens without an end of input has none either. -/
theorem Endless.suffix
    {ahead rest : List Token}
    (endless : Endless ahead)
    (left : rest <:+ ahead) :
    Endless rest :=
  fun token mem => endless token (left.subset mem)

theorem Endless.tail
    {token : Token}
    {rest : List Token}
    (endless : Endless (token :: rest)) :
    Endless rest :=
  endless.suffix (List.suffix_cons token rest)

namespace Seam

variable (seam : Seam)

/-- The tokens before the end of a source with those from there on. -/
def whole (ahead : List Token) : List Token :=
  ahead ++ seam.stop :: seam.beyond

@[simp] theorem whole_nil :
    seam.whole [] = seam.stop :: seam.beyond :=
  rfl

@[simp] theorem whole_cons
    (token : Token)
    (ahead : List Token) :
    seam.whole (token :: ahead) = token :: seam.whole ahead :=
  rfl

/-- The same outcome: the same fault, or the same result with the same tokens left, which are an end
of those ahead. -/
inductive Alike
    (ahead : List Token) :
    Except Diagnostic (α × List Token) → Except Diagnostic (α × List Token) → Prop
  | refused (diagnostic : Diagnostic) : Alike ahead (.error diagnostic) (.error diagnostic)
  | read
      (result : α)
      {rest : List Token}
      (left : rest <:+ ahead) :
      Alike ahead (.ok (result, seam.whole rest)) (.ok (result, rest))

/-- On fewer than `size` tokens that begin in a certain way, a parser does the same with the whole
list as another one with the tokens before its end. -/
def AgreesFrom
    (begins : Token.Kind → Prop)
    (size : Nat)
    (parser other : Parse α) : Prop :=
  ∀ ⦃ahead : List Token⦄, ahead.length < size → Endless ahead → begins (kindAhead ahead) →
    seam.Alike ahead (parser seam.outside (seam.whole ahead)) (other seam.stop ahead)

/-- However the tokens begin. -/
def Agrees (size : Nat) (parser other : Parse α) : Prop :=
  seam.AgreesFrom (fun _ => True) size parser other

variable {seam} {begins : Token.Kind → Prop} {size : Nat}

/-- The next token is of the tokens that are ahead, or the one at which they stop. -/
theorem headD_whole
    (ahead : List Token) :
    (seam.whole ahead).headD seam.outside = ahead.headD seam.stop := by
  cases ahead <;> rfl

theorem length_le_whole
    (ahead : List Token) :
    ahead.length ≤ (seam.whole ahead).length :=
  (List.prefix_append ahead _).length_le

/-- The kind of the next token is that of the first one ahead, or the end of input. -/
theorem kind_head
    (ahead : List Token) :
    (ahead.headD seam.stop).kind = kindAhead ahead :=
  kind_headD seam.ends ahead

/-- Outcomes that are alike for what is left are alike for all that was ahead. -/
theorem Alike.suffix
    {ahead rest : List Token}
    {outcome outcome' : Except Diagnostic (α × List Token)}
    (alike : seam.Alike rest outcome outcome')
    (left : rest <:+ ahead) :
    seam.Alike ahead outcome outcome' := by
  cases alike with
  | refused diagnostic => exact .refused diagnostic
  | read result left' => exact .read result (left'.trans left)

/-- Two parsers agree in a row if the first parts do and the second ones do on whatever is left. -/
theorem Alike.bind
    {ahead : List Token}
    {first first' : Parse α}
    {next next' : α → Parse β}
    (alike : seam.Alike ahead (first seam.outside (seam.whole ahead)) (first' seam.stop ahead))
    (goesOn : ∀ result rest, first' seam.stop ahead = .ok (result, rest) → rest <:+ ahead →
      seam.Alike rest (next result seam.outside (seam.whole rest)) (next' result seam.stop rest)) :
    seam.Alike ahead ((first >>= next) seam.outside (seam.whole ahead))
      ((first' >>= next') seam.stop ahead) := by
  rw [bind_apply, bind_apply]
  generalize first seam.outside (seam.whole ahead) = outcome at alike
  generalize first' seam.stop ahead = outcome' at alike goesOn
  cases alike with
  | refused diagnostic => exact .refused diagnostic
  | read result left => exact (goesOn result _ rfl left).suffix left

/-- A parser that agrees on more tokens agrees on fewer. -/
theorem AgreesFrom.mono
    {begins' : Token.Kind → Prop}
    {size' : Nat}
    {parser other : Parse α}
    (agrees : seam.AgreesFrom begins size parser other)
    (fewer : ∀ kind, begins' kind → begins kind)
    (le : size' ≤ size) :
    seam.AgreesFrom begins' size' parser other :=
  fun _ short endless first => agrees (Nat.lt_of_lt_of_le short le) endless (fewer _ first)

/-- A parser that agrees however the tokens begin does so where they begin in a certain way. -/
theorem AgreesFrom.restrict
    {parser other : Parse α}
    (agrees : seam.AgreesFrom (fun _ => True) size parser other) :
    seam.AgreesFrom begins size parser other :=
  agrees.mono (fun _ _ => trivial) (Nat.le_refl size)

/-- Parsers that agree on some tokens agree on fewer. -/
theorem AgreesFrom.fewer
    {parser other : Parse α}
    (agrees : seam.AgreesFrom begins (size + 1) parser other) :
    seam.AgreesFrom begins size parser other :=
  agrees.mono (fun _ => id) (Nat.le_succ size)

/-- Parsers in sequence. -/
theorem AgreesFrom.bind
    {first first' : Parse α}
    {next next' : α → Parse β}
    (agrees : seam.AgreesFrom begins size first first')
    (goesOn : ∀ result, seam.Agrees size (next result) (next' result)) :
    seam.AgreesFrom begins size (first >>= next) (first' >>= next') := by
  intro ahead short endless begun
  refine (agrees short endless begun).bind fun result rest _ left => ?_
  exact goesOn result (Nat.lt_of_le_of_lt left.length_le short) (endless.suffix left) trivial

/-- A parser that takes nothing agrees with itself. -/
theorem agrees_pure
    (result : α) :
    seam.AgreesFrom begins size (pure result) (pure result) :=
  fun ahead _ _ _ => .read result (List.suffix_refl ahead)

/-- Two refusals with the same message for the same token agree. -/
theorem agrees_refuse
    (token : Token)
    (message : String) :
    seam.AgreesFrom begins size (refuse token message : Parse α) (refuse token message) :=
  fun _ _ _ _ => .refused _

/-- Two parsers of which a test chooses one. -/
theorem AgreesFrom.ite
    {condition : Prop}
    [Decidable condition]
    {first first' second second' : Parse α}
    (firstAgrees : condition → seam.AgreesFrom begins size first first')
    (secondAgrees : ¬ condition → seam.AgreesFrom begins size second second') :
    seam.AgreesFrom begins size (if condition then first else second)
      (if condition then first' else second') := by
  split
  · exact firstAgrees ‹_›
  · exact secondAgrees ‹_›

/-! ## Steps -/

/-- Whatever is done with the next token, it has the kind that the tokens begin with. -/
theorem agrees_peek
    {next next' : Token → Parse α}
    (agrees : ∀ token, begins token.kind →
      seam.AgreesFrom (· = token.kind) size (next token) (next' token)) :
    seam.AgreesFrom begins size (peek >>= next) (peek >>= next') := by
  intro ahead short endless begun
  rw [← kind_head] at begun
  have alike := agrees (ahead.headD seam.stop) begun short endless (kind_head ahead).symm
  rwa [peek_bind, peek_bind, headD_whole]

/-- Behind a token that is taken there is one less. -/
theorem agrees_advance
    {next next' : Token → Parse α}
    (noEnd : ¬ begins .eof)
    (agrees : ∀ token, begins token.kind → seam.Agrees size (next token) (next' token)) :
    seam.AgreesFrom begins (size + 1) (advance >>= next) (advance >>= next') := by
  intro ahead short endless begun
  cases ahead with
  | nil => exact absurd begun noEnd
  | cons token rest =>
    rw [whole_cons, advance_bind, advance_bind]
    exact (agrees token begun (Nat.lt_of_succ_lt_succ short) endless.tail trivial).suffix
      (List.suffix_cons token rest)

/-- Parsers that look at the next token agree if they agree for each answer. -/
theorem agrees_check
    {kind : Token.Kind}
    {next next' : Bool → Parse α}
    (agrees : ∀ found, seam.AgreesFrom (fun first => begins first ∧ (first == kind) = found) size
      (next found) (next' found)) :
    seam.AgreesFrom begins size (check kind >>= next) (check kind >>= next') := by
  intro ahead short endless begun
  have alike := agrees (kindAhead ahead == kind) short endless ⟨begun, rfl⟩
  rwa [bind_apply, bind_apply, check_apply, check_apply, headD_whole, kind_head]

theorem agrees_accept_self
    {kind : Token.Kind}
    (noEnd : kind ≠ .eof) :
    seam.AgreesFrom begins size (accept kind) (accept kind) := by
  intro ahead _ _ _
  by_cases found : kindAhead ahead = kind
  · obtain ⟨token, rest, rfl, tokenKind⟩ := exists_cons_of_kindAhead found noEnd
    rw [whole_cons, accept_found tokenKind, accept_found tokenKind]
    exact .read true (List.suffix_cons token rest)
  · rw [accept_missing seam.ends found, accept_of_ne]
    · exact .read false (List.suffix_refl ahead)
    · rwa [headD_whole, kind_head]

/-- Behind a token that is taken there is one less; without it there are as many as before. -/
theorem agrees_accept
    {kind : Token.Kind}
    {next next' : Bool → Parse α}
    (noEnd : kind ≠ .eof)
    (taken : seam.Agrees size (next true) (next' true))
    (other : seam.Agrees (size + 1) (next false) (next' false)) :
    seam.AgreesFrom begins (size + 1) (accept kind >>= next) (accept kind >>= next') := by
  intro ahead short endless _
  by_cases found : kindAhead ahead = kind
  · obtain ⟨token, rest, rfl, tokenKind⟩ := exists_cons_of_kindAhead found noEnd
    rw [whole_cons, bind_of_ok (accept_found tokenKind ..), bind_of_ok (accept_found tokenKind ..)]
    exact (taken (Nat.lt_of_succ_lt_succ short) endless.tail trivial).suffix
      (List.suffix_cons token rest)
  · rw [bind_of_ok (accept_missing seam.ends found), bind_of_ok (accept_of_ne _)]
    · exact other short endless trivial
    · rwa [headD_whole, kind_head]

/-- Parsers that want a token agree if what follows does. -/
theorem agrees_expect
    {kind : Token.Kind}
    {next next' : Token → Parse α}
    (noEnd : kind ≠ .eof)
    (message : String)
    (agrees : ∀ token, seam.Agrees size (next token) (next' token)) :
    seam.AgreesFrom begins (size + 1) (expect kind message >>= next)
      (expect kind message >>= next') := by
  intro ahead short endless _
  by_cases found : kindAhead ahead = kind
  · obtain ⟨token, rest, rfl, tokenKind⟩ := exists_cons_of_kindAhead found noEnd
    rw [whole_cons, bind_of_ok (expect_found tokenKind ..), bind_of_ok (expect_found tokenKind ..)]
    exact (agrees token (Nat.lt_of_succ_lt_succ short) endless.tail trivial).suffix
      (List.suffix_cons token rest)
  · rw [bind_apply, bind_apply, expect, expect, headD_whole]
    simp only [kind_head, found, if_false, refuse]
    exact .refused _

/-- What is skipped at the front ends before the source does. -/
theorem dropWhile_whole
    {skips : Token → Bool}
    (stays : skips seam.stop = false)
    (ahead : List Token) :
    (seam.whole ahead).dropWhile skips = seam.whole (ahead.dropWhile skips) := by
  induction ahead with
  | nil => simp [stays]
  | cons token rest ih =>
    rw [whole_cons, List.dropWhile_cons, List.dropWhile_cons, ih]
    split <;> rfl

/-- Line breaks end where the tokens do. -/
theorem agrees_skipNewlines :
    seam.AgreesFrom begins size skipNewlines skipNewlines := by
  intro ahead _ _ _
  rw [skipNewlines, skipNewlines, dropWhile_whole (by simp [seam.ends])]
  exact .read () (List.dropWhile_suffix _)

theorem agrees_skipSeparators :
    seam.AgreesFrom begins size skipSeparators skipSeparators := by
  intro ahead _ _ _
  rw [skipSeparators, skipSeparators, dropWhile_whole (by simp [seam.ends])]
  exact .read () (List.dropWhile_suffix _)

theorem agrees_acceptPastNewlines
    {kind : Token.Kind}
    (noEnd : kind ≠ .eof) :
    seam.AgreesFrom begins size (acceptPastNewlines kind) (acceptPastNewlines kind) := by
  intro ahead _ _ _
  simp only [acceptPastNewlines]
  rw [dropWhile_whole (by simp [seam.ends]), headD_whole, kind_head]
  have left : ahead.dropWhile (·.kind == .newline) <:+ ahead := List.dropWhile_suffix _
  generalize ahead.dropWhile (·.kind == .newline) = rest at left
  by_cases found : kindAhead rest = kind
  · obtain ⟨token, rest, rfl, _⟩ := exists_cons_of_kindAhead found noEnd
    rw [if_pos found, if_pos found, whole_cons, List.tail_cons, List.tail_cons]
    exact .read true ((List.suffix_cons token rest).trans left)
  · rw [if_neg found, if_neg found]
    exact .read false (List.suffix_refl ahead)

/-- The two tokens behind a colon show the same declaration if the source ends among them. -/
theorem declared?_whole
    (ahead : List Token) :
    declared? (seam.whole ahead) = declared? ahead := by
  have noFlavour : Rules.flavour? seam.stop = none := by simp [Rules.flavour?, seam.ends]
  match ahead with
  | [] => exact declared?_of_kind (by simp [seam.ends]) _
  | [colon] => cases beyond : seam.beyond <;> simp [whole, declared?, beyond, noFlavour]
  | [colon, word] => simp [whole, declared?, seam.ends]
  | colon :: word :: equals :: rest => rfl

/-! ## Repetitions -/

/-- However many rounds a loop may take, it takes as many as there are tokens to take. -/
theorem alike_extendUpTo
    {extension? extension'? : Token → Option (α → Parse α)}
    (same : ∀ token, Option.Rel
      (fun extension extension' =>
        ∀ result, seam.Agrees size (extension result) (extension' result))
      (extension? token) (extension'? token))
    (atEnd : extension'? seam.stop = none)
    {bound bound' ahead : List Token}
    (short : ahead.length < size + 1)
    (enough : ahead.length ≤ bound.length)
    (enough' : ahead.length ≤ bound'.length)
    (endless : Endless ahead)
    (result : α) :
    seam.Alike ahead
      (extendUpTo extension? bound result seam.outside (seam.whole ahead))
      (extendUpTo extension'? bound' result seam.stop ahead) := by
  have ended {token : Token} (ends : extension'? token = none) : extension? token = none := by
    have same := same token
    rw [ends] at same
    generalize extension? token = found at same
    cases same
    rfl
  -- Induction on the rounds; each takes the token that says how to go on.
  induction bound generalizing bound' ahead result with
  | nil =>
    obtain rfl := List.length_eq_zero_iff.1 (Nat.le_zero.1 enough)
    have atEnd' : extension'? (([] : List Token).headD seam.stop) = none := atEnd
    rw [extendUpTo_of_none atEnd']
    exact .read result (List.suffix_refl _)
  | cons _ bound ih =>
    cases next : extension'? (ahead.headD seam.stop) with
    | none =>
      rw [extendUpTo_of_none next, extendUpTo_of_none]
      · exact .read result (List.suffix_refl _)
      · rw [headD_whole]
        exact ended next
    | some extension' =>
      -- The end of the source is no token that says how to go on.
      obtain ⟨token, rest, rfl⟩ : ∃ token rest, ahead = token :: rest := by
        cases ahead with
        | nil => simp [atEnd] at next
        | cons token rest => exact ⟨token, rest, rfl⟩
      obtain ⟨_, bound', rfl⟩ := List.exists_cons_of_length_pos
        (Nat.lt_of_lt_of_le (Nat.succ_pos _) enough')
      have same := same token
      rw [List.headD_cons] at next
      rw [extendUpTo, extendUpTo, peek_bind, peek_bind, headD_whole, List.headD_cons]
      rw [next] at same ⊢
      generalize extension? token = found at same
      cases same with
      | some agrees =>
        have shorter := Nat.lt_of_succ_lt_succ short
        refine Alike.suffix ?_ (List.suffix_cons token rest)
        dsimp only [whole_cons]
        rw [advance_bind, advance_bind]
        refine (agrees result shorter endless.tail trivial).bind fun result left _ suffix => ?_
        have le := suffix.length_le
        exact ih (Nat.lt_succ_of_le (Nat.le_trans le (Nat.le_of_lt shorter)))
          (Nat.le_trans le (Nat.le_of_succ_le_succ enough))
          (Nat.le_trans le (Nat.le_of_succ_le_succ enough')) (endless.tail.suffix suffix) result

/-- Parsers that extend a result agree if all extensions do and the end of the tokens extends
nothing. -/
theorem agrees_extend
    {extension? extension'? : Token → Option (α → Parse α)}
    (same : ∀ token, Option.Rel
      (fun extension extension' =>
        ∀ result, seam.Agrees size (extension result) (extension' result))
      (extension? token) (extension'? token))
    (atEnd : extension'? seam.stop = none)
    (result : α) :
    seam.AgreesFrom begins (size + 1) (extend extension? result) (extend extension'? result) := by
  intro ahead short endless _
  exact alike_extendUpTo same atEnd short (length_le_whole ahead) (Nat.le_refl _) endless result

/-- Lists of items come out alike, whatever follows the tokens, if the items do. -/
theorem alike_itemsUpTo
    {item item' : Parse α}
    (agrees : seam.Agrees size item item')
    (closing : Mark)
    {bound bound' ahead : List Token}
    (short : ahead.length < size)
    (enough : ahead.length < bound.length)
    (enough' : ahead.length < bound'.length)
    (endless : Endless ahead) :
    seam.Alike ahead
      (itemsUpTo closing item bound seam.outside (seam.whole ahead))
      (itemsUpTo closing item' bound' seam.stop ahead) := by
  -- Induction on the rounds; each but the last takes a comma.
  induction bound generalizing bound' ahead with
  | nil => exact absurd enough (Nat.not_lt_zero _)
  | cons round bound ih =>
    obtain ⟨round', bound', rfl⟩ := List.exists_cons_of_length_pos
      (Nat.lt_of_le_of_lt (Nat.zero_le _) enough')
    have rounds : seam.Agrees (ahead.length + 1)
        (itemsUpTo closing item (round :: bound)) (itemsUpTo closing item' (round' :: bound')) := by
      refine agrees_check fun closes => .ite (fun _ => agrees_pure []) fun _ => ?_
      refine (agrees.mono (fun _ _ => trivial) short).bind fun first => ?_
      refine AgreesFrom.bind agrees_skipNewlines fun _ => ?_
      refine agrees_accept (by simp) ?_ (agrees_pure [first])
      refine AgreesFrom.bind agrees_skipNewlines fun _ => ?_
      refine AgreesFrom.bind ?_ fun others => agrees_pure _
      intro rest shorter restEndless _
      have le := Nat.le_of_lt_succ enough
      have le' := Nat.le_of_lt_succ enough'
      exact ih (Nat.lt_trans shorter short) (Nat.lt_of_lt_of_le shorter le)
        (Nat.lt_of_lt_of_le shorter le') restEndless
    exact rounds (Nat.lt_succ_self _) endless trivial

/-- A list behind its opening bracket. -/
theorem agrees_listUpTo
    {item item' : Parse α}
    (agrees : seam.Agrees size item item')
    (closing : Mark)
    (message : String) :
    seam.AgreesFrom begins size (listUpTo closing message item)
      (listUpTo closing message item') := by
  intro ahead short endless begun
  cases size with
  | zero => exact absurd short (Nat.not_lt_zero _)
  | succ size =>
    have list : seam.AgreesFrom begins (size + 1) (listUpTo closing message item)
        (listUpTo closing message item') := by
      refine AgreesFrom.bind agrees_skipNewlines fun _ => agrees_peek fun next _ => ?_
      refine AgreesFrom.bind (fun rest short endless _ => ?_) fun items =>
        agrees_expect (by simp) _ fun _ => agrees_pure items
      exact alike_itemsUpTo agrees closing short (Nat.lt_succ_of_le (length_le_whole rest))
        (Nat.lt_succ_self _) endless
    exact list short endless begun

/-- Lists of statements come out alike, whatever follows the tokens, if the statements do. -/
theorem alike_statementsUpTo
    {statement statement' : Parse Stmt}
    (agrees : seam.Agrees size statement statement')
    (moves : ∀ {ahead rest result}, statement' seam.stop ahead = .ok (result, rest) →
      rest.length < ahead.length)
    {isEnd : Token → Bool}
    (atEnd : isEnd seam.stop = true)
    {bound bound' ahead : List Token}
    (short : ahead.length < size)
    (enough : ahead.length ≤ bound.length)
    (enough' : ahead.length ≤ bound'.length)
    (endless : Endless ahead) :
    seam.Alike ahead
      (Rules.statementsUpTo statement isEnd bound seam.outside (seam.whole ahead))
      (Rules.statementsUpTo statement' isEnd bound' seam.stop ahead) := by
  -- Induction on the rounds; each takes the tokens of a statement.
  induction bound generalizing bound' ahead with
  | nil =>
    obtain rfl := List.length_eq_zero_iff.1 (Nat.le_zero.1 enough)
    rw [statementsUpTo_of_end (show isEnd (([] : List Token).headD seam.stop) = true from atEnd)]
    exact .read [] (List.suffix_refl _)
  | cons _ bound ih =>
    cases ends : isEnd (ahead.headD seam.stop) with
    | true =>
      rw [statementsUpTo_of_end ends, statementsUpTo_of_end (by rwa [headD_whole])]
      exact .read [] (List.suffix_refl _)
    | false =>
      have spelled : ahead ≠ [] := by
        rintro rfl
        simp [atEnd] at ends
      obtain ⟨_, bound', rfl⟩ := List.exists_cons_of_length_pos
        (Nat.lt_of_lt_of_le (List.length_pos_iff.2 spelled) enough')
      rw [Rules.statementsUpTo, Rules.statementsUpTo, peek_bind, peek_bind, headD_whole, ends]
      refine (agrees short endless trivial).bind fun first rest read left => ?_
      have shorter := moves read
      have restShort := Nat.lt_trans shorter short
      have skips : seam.Agrees size skipSeparators skipSeparators := agrees_skipSeparators
      refine (skips restShort (endless.suffix left) trivial).bind fun _ last _ left' => ?_
      have le := Nat.lt_of_le_of_lt left'.length_le shorter
      have others := ih (Nat.lt_trans le short)
        (Nat.le_of_lt_succ (Nat.lt_of_lt_of_le le enough))
        (Nat.le_of_lt_succ (Nat.lt_of_lt_of_le le enough')) (endless.suffix (left'.trans left))
      exact others.bind fun others left _ _ => .read (first :: others) (List.suffix_refl left)

/-- Statements up to a token that ends them, as the end of the source does. -/
theorem agrees_statements
    {statement statement' : Parse Stmt}
    (agrees : seam.Agrees size statement statement')
    (moves : ∀ {ahead rest result}, statement' seam.stop ahead = .ok (result, rest) →
      rest.length < ahead.length)
    {isEnd : Token → Bool}
    (atEnd : isEnd seam.stop = true) :
    seam.AgreesFrom begins size (Rules.statements statement isEnd)
      (Rules.statements statement' isEnd) := by
  refine AgreesFrom.bind agrees_skipSeparators fun _ => fun ahead short endless _ => ?_
  exact alike_statementsUpTo agrees moves atEnd short (length_le_whole ahead) (Nat.le_refl _)
    endless

/-! ## Forms -/

/-- Rules whose parsers do the same on fewer than `size` tokens.  The one for a branch is only used
where the tokens begin with its keyword. -/
structure RulesAgree (seam : Seam) (size : Nat) (rules other : Rules) : Prop where
  expression : seam.Agrees size rules.expression other.expression
  ternary : seam.Agrees size rules.ternary other.ternary
  unary : seam.Agrees size rules.unary other.unary
  statement : seam.Agrees size rules.statement other.statement
  branch : seam.AgreesFrom (· = .keyword .ifWord) size rules.branch other.branch
  /-- No statement is empty. -/
  moves : ∀ {ahead rest result}, other.statement seam.stop ahead = .ok (result, rest) →
    rest.length < ahead.length

section Forms

variable {rules other : Rules} (agree : RulesAgree seam size rules other)

include agree

/-- Blocks are parsed alike, whatever follows the tokens. -/
theorem agrees_block :
    seam.Agrees (size + 1) rules.block other.block := by
  refine agrees_expect (by simp) _ fun _ => ?_
  refine AgreesFrom.bind (agrees_statements agree.statement agree.moves ?_) fun body => ?_
  · simp [Rules.endsBlock, seam.ends]
  · exact (agrees_expect (by simp) _ fun _ => agrees_pure body).fewer

/-- The body of a statement is parsed alike, whatever follows the tokens. -/
theorem agrees_body
    (context : String) :
    seam.Agrees (size + 1) (rules.body context) (other.body context) := by
  refine agrees_check fun isBlock => .ite (fun _ => (agrees_block agree).restrict) fun _ => ?_
  refine agrees_accept (by simp) ?_ (agrees_peek fun token _ => agrees_refuse token _)
  exact agree.statement.bind fun statement => agrees_pure [statement]

/-- Parameters without brackets are parsed alike, whatever follows the tokens. -/
theorem alike_bareParameters
    {bound bound' ahead : List Token}
    (short : ahead.length < size + 1)
    (enough : ahead.length ≤ bound.length)
    (enough' : ahead.length ≤ bound'.length)
    (endless : Endless ahead) :
    seam.Alike ahead
      (rules.bareParameters bound seam.outside (seam.whole ahead))
      (other.bareParameters bound' seam.stop ahead) := by
  -- Induction on the rounds; each takes a name.
  induction bound generalizing bound' ahead with
  | nil =>
    obtain rfl := List.length_eq_zero_iff.1 (Nat.le_zero.1 enough)
    have atEnd : (([] : List Token).headD seam.stop).kind ≠ .identifier := by simp [seam.ends]
    rw [bareParameters_of_end atEnd]
    exact .read [] (List.suffix_refl _)
  | cons round bound ih =>
    cases ahead with
    | nil =>
      rw [bareParameters_of_end (by simp [seam.ends]), bareParameters_of_end (by simp [seam.ends])]
      exact .read [] (List.suffix_refl _)
    | cons token rest =>
      obtain ⟨round', bound', rfl⟩ := List.exists_cons_of_length_pos
        (Nat.lt_of_lt_of_le (Nat.succ_pos _) enough')
      have le := Nat.le_of_succ_le_succ enough
      have le' := Nat.le_of_succ_le_succ enough'
      have expression : seam.Agrees rest.length rules.expression other.expression :=
        agree.expression.mono (fun _ => id) (Nat.le_of_lt (Nat.lt_of_succ_lt_succ short))
      have others : seam.Agrees (rest.length + 1) (rules.bareParameters bound)
          (other.bareParameters bound') :=
        fun left shorter leftEndless _ =>
          have leftLe := Nat.le_of_lt_succ shorter
          ih (Nat.lt_of_le_of_lt leftLe (Nat.lt_of_succ_lt short)) (Nat.le_trans leftLe le)
            (Nat.le_trans leftLe le') leftEndless
      have rounds : seam.Agrees (rest.length + 2) (rules.bareParameters (round :: bound))
          (other.bareParameters (round' :: bound')) := by
        refine agrees_check fun named => .ite (fun isNamed => ?_) fun _ => agrees_pure []
        refine agrees_advance (by simp [isNamed]) fun name _ => ?_
        refine agrees_accept (by simp) ?_ (AgreesFrom.bind (agrees_pure _) fun first =>
          others.bind fun others => agrees_pure _)
        refine AgreesFrom.fewer ?_
        refine agrees_expect (by simp) _ fun _ => ?_
        refine expression.bind fun default => AgreesFrom.fewer ?_
        refine agrees_expect (by simp) _ fun _ => AgreesFrom.bind (agrees_pure _) fun first => ?_
        exact others.fewer.bind fun others => agrees_pure _
      exact rounds (Nat.lt_succ_self _) endless trivial

theorem agrees_parameter :
    seam.Agrees (size + 1) rules.parameter other.parameter := by
  refine agrees_expect (by simp) _ fun name => AgreesFrom.fewer ?_
  refine agrees_accept (by simp) ?_ (agrees_pure _)
  exact agree.ternary.bind fun default => agrees_pure _

theorem agrees_parameters :
    seam.Agrees (size + 1) rules.parameters other.parameters := by
  refine agrees_accept (by simp) (agrees_listUpTo (agrees_parameter agree).fewer _ _) ?_
  intro ahead short endless _
  exact alike_bareParameters agree short (length_le_whole ahead) (Nat.le_refl _) endless

/-- Functions are parsed alike, whatever follows the tokens. -/
theorem agrees_function
    (exported : Bool) :
    seam.AgreesFrom (· ≠ .eof) (size + 1) (rules.function exported) (other.function exported) := by
  have parameters := agrees_parameters agree
  refine agrees_advance (by simp) fun keyword _ => AgreesFrom.fewer ?_
  refine agrees_accept (by simp) ?_ ?_
  · refine AgreesFrom.fewer (agrees_accept (by simp) ?_ ?_)
    · exact agree.expression.bind fun value => agrees_pure _
    · refine parameters.bind fun parameters => ?_
      refine agrees_expect (by simp) _ fun _ => agree.ternary.bind fun value => agrees_pure _
  · refine agrees_check fun nameAhead => ?_
    refine .ite (fun named => agrees_advance (by simp_all) fun word _ => AgreesFrom.fewer ?_)
      fun _ => ?_
    all_goals
      refine AgreesFrom.bind (agrees_pure _) fun name => parameters.bind fun parameters => ?_
      refine agrees_check fun isBlock => .ite (fun _ => ?_) fun _ => ?_
      · exact (agrees_block agree).restrict.bind fun body => agrees_pure _
      · refine agrees_accept (by simp) ?_ (agrees_peek fun token _ => agrees_refuse token _)
        exact agree.ternary.bind fun value => agrees_pure _

theorem agrees_field :
    seam.Agrees (size + 1) rules.field other.field := by
  refine agrees_peek fun key _ => .ite (fun named => ?_) fun _ => agrees_refuse key _
  refine agrees_advance (by rcases named with kind | kind <;> simp [kind]) fun _ _ => ?_
  refine AgreesFrom.bind agrees_skipNewlines fun _ => AgreesFrom.fewer ?_
  refine agrees_accept (by simp) ?_ ?_
  · refine AgreesFrom.bind agrees_skipNewlines fun _ => ?_
    exact agree.expression.bind fun value => agrees_pure _
  · refine agrees_check fun comma => agrees_check fun closes => .ite (fun _ => agrees_pure _) ?_
    exact fun _ => agrees_peek fun token _ => agrees_refuse token _

/-- Primary expressions are parsed alike, whatever follows the tokens. -/
theorem agrees_primary :
    seam.Agrees (size + 1) rules.primary other.primary := by
  refine agrees_peek fun token _ => ?_
  dsimp only
  have takes {value : Expr} (noEnd : token.kind ≠ .eof) :
      seam.AgreesFrom (· = token.kind) (size + 1) (do let _ ← advance; pure value)
        (do let _ ← advance; pure value) :=
    agrees_advance noEnd.symm fun _ _ => agrees_pure value
  split
  case h_1 kind | h_4 kind | h_5 kind | h_6 kind | h_7 kind => exact takes (by simp [kind])
  case h_2 kind | h_3 kind =>
    split
    · exact agrees_refuse token _
    · exact takes (by simp [kind])
  case h_8 kind =>
    refine agrees_advance (by simp [kind]) fun _ _ => ?_
    exact agree.unary.bind fun operand => agrees_pure _
  case h_9 kind | h_10 kind =>
    refine (agrees_function agree false).mono ?_ (Nat.le_refl _)
    simp [kind]
  case h_11 kind =>
    refine agrees_advance (by simp [kind]) fun _ _ => ?_
    refine AgreesFrom.bind agrees_skipNewlines fun _ => ?_
    refine agree.expression.bind fun inner => AgreesFrom.bind agrees_skipNewlines fun _ => ?_
    exact AgreesFrom.fewer (agrees_expect (by simp) _ fun _ => agrees_pure inner)
  case h_12 kind =>
    refine agrees_advance (by simp [kind]) fun _ _ => ?_
    exact (agrees_listUpTo agree.expression _ _).bind fun items => agrees_pure _
  case h_13 kind =>
    refine agrees_advance (by simp [kind]) fun _ _ => ?_
    exact (agrees_listUpTo (agrees_field agree).fewer _ _).bind fun fields => agrees_pure _
  case h_14 => exact agrees_refuse token _

omit agree in
theorem agrees_memberName :
    seam.AgreesFrom begins (size + 1) Rules.memberName Rules.memberName := by
  refine agrees_peek fun token _ => ?_
  split
  case h_1 kind | h_2 kind => exact agrees_advance (by simp [kind]) fun _ _ => agrees_pure _
  case h_3 => exact agrees_refuse token _

/-- The same suffixes are recognized, and they are parsed alike. -/
theorem agrees_suffix
    (token : Token) :
    Option.Rel
      (fun extension extension' =>
        ∀ subject, seam.Agrees size (extension subject) (extension' subject))
      (rules.suffix? token) (other.suffix? token) := by
  unfold Rules.suffix?
  split
  · refine .some fun callee => ?_
    exact (agrees_listUpTo agree.expression _ _).bind fun arguments => agrees_pure _
  · refine .some fun subject => ?_
    exact AgreesFrom.bind agrees_memberName.fewer fun key => agrees_pure _
  · refine .some fun subject => AgreesFrom.bind agrees_skipNewlines fun _ => ?_
    refine agree.expression.bind fun key => AgreesFrom.bind agrees_skipNewlines fun _ => ?_
    exact AgreesFrom.fewer (agrees_expect (by simp) _ fun _ => agrees_pure _)
  · exact .none

/-- Calls and members are parsed alike, whatever follows the tokens. -/
theorem agrees_callOrMember :
    seam.Agrees (size + 1) rules.callOrMember other.callOrMember :=
  (agrees_primary agree).bind fun subject =>
    agrees_extend (agrees_suffix agree) (by simp [Rules.suffix?, seam.ends]) subject

/-- Unary expressions are parsed alike, whatever follows the tokens. -/
theorem agrees_unaryForm :
    seam.Agrees (size + 1) rules.unaryForm other.unaryForm := by
  have noLeading : Rules.leading? seam.stop = none := by simp [Rules.leading?, seam.ends]
  refine agrees_peek fun sign _ => ?_
  cases found : Rules.leading? sign with
  | some operation =>
    refine agrees_advance (fun ends => ?_) fun _ _ => agree.unary.bind fun operand => agrees_pure _
    simp [Rules.leading?, ← ends] at found
  | none =>
    refine (agrees_callOrMember agree).restrict.bind fun operand => agrees_peek fun sign _ => ?_
    cases found : Rules.trailing? sign with
    | some op =>
      refine agrees_advance (fun ends => ?_) fun _ _ => agrees_pure _
      simp [Rules.trailing?, ← ends] at found
    | none => exact agrees_pure operand

omit agree in
/-- Chains of operators are parsed alike if the end of the tokens is no operator. -/
theorem agrees_chain
    {operand operand' : Parse Expr}
    (agrees : seam.Agrees (size + 1) operand operand')
    {operation? : Token → Option (Position → Expr → Expr → Expr)}
    (atEnd : operation? seam.stop = none) :
    seam.Agrees (size + 1) (Rules.chain operand operation?) (Rules.chain operand' operation?) := by
  refine agrees.bind fun first => agrees_extend (fun token => ?_) (by simp [atEnd]) first
  cases operation? token with
  | none => exact .none
  | some operation =>
    exact .some fun left => agrees.fewer.bind fun right => agrees_pure _

theorem agrees_logical :
    seam.Agrees (size + 1) rules.logical other.logical := by
  have ends := seam.ends
  have product : seam.Agrees (size + 1) rules.product other.product :=
    agrees_chain (agrees_unaryForm agree) (by simp [Rules.productOperator?, ends])
  have sum : seam.Agrees (size + 1) rules.sum other.sum :=
    agrees_chain product (by simp [Rules.sumOperator?, ends])
  have comparison : seam.Agrees (size + 1) rules.comparison other.comparison :=
    agrees_chain sum (by simp [Rules.comparisonOperator?, ends])
  have equality : seam.Agrees (size + 1) rules.equality other.equality :=
    agrees_chain comparison (by simp [Rules.equalityOperator?, ends])
  exact agrees_chain equality (by simp [Rules.logicalOperator?, ends])

/-- Ternary expressions are parsed alike, whatever follows the tokens. -/
theorem agrees_ternaryForm :
    seam.Agrees (size + 1) rules.ternaryForm other.ternaryForm := by
  refine (agrees_logical agree).bind fun test => ?_
  refine agrees_accept (by simp) ?_ (agrees_pure test)
  refine (agrees_logical agree).fewer.bind fun consequent => AgreesFrom.fewer ?_
  refine agrees_expect (by simp) _ fun _ => ?_
  exact agree.ternary.bind fun alternate => agrees_pure _

/-- Assignments are parsed alike, whatever follows the tokens. -/
theorem agrees_assignment :
    seam.Agrees (size + 1) rules.assignment other.assignment := by
  refine (agrees_ternaryForm agree).bind fun target => ?_
  refine agrees_accept (by simp) ?_ ?_
  · exact agree.expression.bind fun value => agrees_pure _
  refine agrees_peek fun sign _ => ?_
  cases found : Rules.compound? sign with
  | some op =>
    refine agrees_advance (fun ends => ?_) fun _ _ => ?_
    · simp [Rules.compound?, ← ends] at found
    · exact agree.expression.bind fun value => agrees_pure _
  | none =>
    intro ahead short endless _
    dsimp only
    rw [bind_of_ok (Rules.declarationAhead_apply ..), bind_of_ok (Rules.declarationAhead_apply ..),
      declared?_whole]
    cases declares : declared? ahead with
    | none => exact .read target (List.suffix_refl ahead)
    | some flavour =>
      obtain ⟨colon, word, equals, rest, rfl, _⟩ := exists_declaration declares
      cases target with
      | name position name =>
        simp only [whole_cons, advance_bind]
        have shorter : rest.length < size := by
          simp only [List.length_cons] at short
          omega
        refine Alike.suffix ?_ (⟨[colon, word, equals], rfl⟩ : rest <:+ _)
        have value := agree.expression shorter endless.tail.tail.tail trivial
        exact value.bind fun value left _ _ => .read _ (List.suffix_refl left)
      | _ => exact .refused _

theorem agrees_alternative :
    seam.Agrees size rules.alternative other.alternative := by
  refine agrees_check fun isBranch => .ite (fun found => ?_) fun _ => ?_
  · have branch : seam.AgreesFrom (fun first => True ∧ (first == .keyword .ifWord) = isBranch) size
        rules.branch other.branch :=
      agree.branch.mono (by simp [found]) (Nat.le_refl size)
    exact branch.bind fun branch => agrees_pure _
  · have block := agrees_block agree
    refine agrees_check fun isBlock => .ite (fun _ => block.fewer.restrict) fun _ => ?_
    refine AgreesFrom.bind (agrees_accept_self (by simp)) fun _ => ?_
    exact agree.statement.bind fun statement => agrees_pure _

/-- Branches are parsed alike, whatever follows the tokens. -/
theorem agrees_branchForm :
    seam.AgreesFrom (· ≠ .eof) (size + 1) rules.branchForm other.branchForm := by
  refine agrees_advance (by simp) fun keyword _ => agree.expression.bind fun test => ?_
  refine (agrees_body agree _).fewer.bind fun consequent => ?_
  refine AgreesFrom.bind (agrees_acceptPastNewlines (by simp)) fun hasElse => ?_
  refine .ite (fun _ => ?_) fun _ => ?_
  · exact (agrees_alternative agree).bind fun alternate => agrees_pure _
  · exact AgreesFrom.bind (agrees_pure []) fun alternate => agrees_pure _

theorem agrees_whileForm :
    seam.AgreesFrom (· ≠ .eof) (size + 1) rules.whileForm other.whileForm := by
  refine agrees_advance (by simp) fun keyword _ => agree.expression.bind fun test => ?_
  exact (agrees_body agree _).fewer.bind fun body => agrees_pure _

theorem agrees_forForm :
    seam.AgreesFrom (· ≠ .eof) (size + 1) rules.forForm other.forForm := by
  refine agrees_advance (by simp) fun keyword _ => agree.expression.bind fun start => .fewer ?_
  refine agrees_expect (by simp) _ fun _ => agree.expression.bind fun test => .fewer ?_
  refine agrees_expect (by simp) _ fun _ => agree.expression.bind fun update => ?_
  exact (agrees_block agree).fewer.bind fun body => agrees_pure _

theorem agrees_returnForm :
    seam.AgreesFrom (· ≠ .eof) (size + 1) rules.returnForm other.returnForm := by
  refine agrees_advance (by simp) fun keyword _ => agrees_peek fun next _ => ?_
  refine .ite (fun _ => agrees_pure _) fun _ => ?_
  exact agree.expression.restrict.bind fun value => agrees_pure _

theorem agrees_debugForm :
    seam.AgreesFrom (· ≠ .eof) (size + 1) rules.debugForm other.debugForm := by
  refine agrees_advance (by simp) fun keyword _ => ?_
  refine AgreesFrom.bind (agrees_accept_self (by simp)) fun listed => .ite (fun _ => ?_) fun _ => ?_
  · exact (agrees_listUpTo agree.expression _ _).bind fun values => agrees_pure _
  · exact agree.expression.bind fun value => agrees_pure _

omit agree in
theorem agrees_useForm :
    seam.AgreesFrom (· ≠ .eof) (size + 1) Rules.useForm Rules.useForm := by
  refine agrees_advance (by simp) fun keyword _ => .fewer ?_
  exact agrees_expect (by simp) _ fun _ => agrees_pure _

theorem agrees_exportForm :
    seam.AgreesFrom (· ≠ .eof) (size + 1) rules.exportForm other.exportForm := by
  refine agrees_advance (by simp) fun keyword _ => agrees_check fun isFunction => ?_
  refine .ite (fun found => ?_) fun _ => agrees_peek fun token _ => agrees_refuse token _
  refine AgreesFrom.bind ?_ fun function => agrees_pure _
  refine (agrees_function agree true).mono ?_ (Nat.le_succ size)
  rintro kind ⟨-, isFunction⟩ rfl
  simp [← isFunction] at found

/-- Statements are parsed alike, whatever follows the tokens. -/
theorem agrees_bareStatement :
    seam.Agrees (size + 1) rules.bareStatement other.bareStatement := by
  refine agrees_peek fun next _ => ?_
  have fromKeyword {parser other : Parse Stmt} {word : Keyword}
      (agrees : seam.AgreesFrom (· ≠ .eof) (size + 1) parser other)
      (kind : next.kind = .keyword word) :
      seam.AgreesFrom (· = next.kind) (size + 1) parser other :=
    agrees.mono (by simp [kind]) (Nat.le_refl _)
  split
  case h_1 kind => exact fromKeyword (agrees_branchForm agree) kind
  case h_2 kind => exact fromKeyword (agrees_whileForm agree) kind
  case h_3 kind => exact fromKeyword (agrees_forForm agree) kind
  case h_4 kind => exact fromKeyword (agrees_returnForm agree) kind
  case h_5 kind => exact fromKeyword (agrees_debugForm agree) kind
  case h_6 kind => exact fromKeyword agrees_useForm kind
  case h_7 kind => exact fromKeyword (agrees_exportForm agree) kind
  case h_8 => exact (agrees_assignment agree).restrict.bind fun value => agrees_pure _

/-- Statements with their separators are parsed alike, whatever follows the tokens. -/
theorem agrees_statementForm :
    seam.Agrees (size + 1) rules.statementForm other.statementForm := by
  refine (agrees_bareStatement agree).bind fun statement => ?_
  exact agrees_accept (by simp) (agrees_pure statement) (agrees_pure statement)

end Forms

/-! ## All rules -/

/-- Rules of which one more is nested agree on streams with one more token. -/
theorem rulesAgree_next
    {rules other : Rules}
    (sound : RulesSound other)
    (agree : seam.RulesAgree size rules other) :
    seam.RulesAgree (size + 1) rules.next other.next where
  expression := agrees_assignment agree
  ternary := agrees_ternaryForm agree
  unary := agrees_unaryForm agree
  statement := agrees_statementForm agree
  branch := (agrees_branchForm agree).mono (by simp) (Nat.le_refl _)
  moves := (next_sound sound).statement.moves rfl seam.ends

end Seam
end Grammar
end TinyScript
