import TinyScript.Proofs.Syntax.Relabel
import TinyScript.Proofs.Token.Tiling

/-!
# Sources one behind the other

A line feed ends whatever a scanner is in the middle of, unless that is a string.
A source behind a line feed is therefore scanned like one of its own, only at
other places.
-/

namespace TinyScript

namespace Position

/-- The place that a place of a text is at when the text begins on a line of its own at
`origin`. -/
def behind (origin position : Position) : Position :=
  { line := origin.line + position.line
    column := position.column
    offset := origin.offset + position.offset }

/-- The place on the line after a source. -/
def below (source : String) : Position :=
  (start.afterAll source.toList).after '\n'

theorem behind_after
    (origin position : Position)
    (c : Char) :
    origin.behind (position.after c) = (origin.behind position).after c := by
  unfold behind after
  split
  · simp only [Nat.add_assoc]
  · simp only [Nat.add_assoc]

theorem line_below
    (source : String) :
    (below source).line = source.toList.count '\n' + 1 := by
  rw [below, after_lineFeed]
  simp only [line_afterAll, start, Nat.zero_add]

theorem offset_below
    (source : String) :
    (below source).offset = source.utf8ByteSize + 1 := by
  rw [below, after_lineFeed]
  simp only [offset_afterAll, start, Nat.zero_add, String.ofList_toList]

end Position

/-- A diagnostic about another place. -/
def Diagnostic.relabel (change : Position → Position) (diagnostic : Diagnostic) : Diagnostic :=
  { diagnostic with position := diagnostic.position.map change }

section Outcome

variable {α β ε δ : Type}

theorem mapError_map_ok
    (f : α → β)
    (g : ε → δ)
    (a : α) :
    ((Except.ok a : Except ε α).map f).mapError g = .ok (f a) :=
  rfl

theorem mapError_map_error
    (f : α → β)
    (g : ε → δ)
    (e : ε) :
    ((Except.error e : Except ε α).map f).mapError g = .error (g e) :=
  rfl

end Outcome

namespace Scanner

/-- The same mode, begun at another place. -/
def Mode.relabel (change : Position → Position) : Mode → Mode
  | .between => .between
  | .comment => .comment
  | .word start letters => .word (change start) letters
  | .number start digits => .number (change start) digits
  | .operator start signs => .operator (change start) signs
  | .string start quote text escaped => .string (change start) quote text escaped

/-- The scanner at another place, which has completed other tokens before. -/
def moved (change : Position → Position) (before : List Token) (scanner : Scanner) : Scanner :=
  { mode := scanner.mode.relabel change
    position := change scanner.position
    tokens := scanner.tokens.map (Token.relabel change) ++ before }

section Moving

variable {change : Position → Position} {before : List Token}

theorem moved_complete
    (scanner : Scanner) :
    scanner.complete.moved change before = (scanner.moved change before).complete := by
  obtain ⟨mode, position, tokens⟩ := scanner
  cases mode <;> rfl

variable (commutes : ∀ position c, change (position.after c) = (change position).after c)

include commutes

theorem readFresh_moved
    (scanner : Scanner)
    (c : Char) :
    (scanner.moved change before).readFresh c =
      ((scanner.readFresh c).map (moved change before)).mapError (Diagnostic.relabel change) := by
  unfold readFresh
  simp only
  repeat' split
  all_goals
    simp_all [mapError_map_ok, mapError_map_error, moved, advance, emit, Mode.relabel,
      Token.relabel, Diagnostic.relabel, Diagnostic.withPosition]

/-- Where a scanner is does not matter to how it goes on. -/
theorem read_moved
    (scanner : Scanner)
    (c : Char) :
    (scanner.moved change before).read c =
      ((scanner.read c).map (moved change before)).mapError (Diagnostic.relabel change) := by
  have fresh :
      ∀ (scanner : Scanner) (c : Char),
        (scanner.moved change before).readFresh c =
          ((scanner.readFresh c).map (moved change before)).mapError
            (Diagnostic.relabel change) :=
    readFresh_moved commutes
  obtain ⟨mode, position, tokens⟩ := scanner
  cases mode with
  | between => exact fresh _ c
  | comment =>
      simp only [read, moved, Mode.relabel]
      split
      · exact fresh { mode := .between, position := position, tokens := tokens } c
      · simp [mapError_map_ok, moved, advance, Mode.relabel, commutes]
  | word start letters =>
      simp only [read, moved, Mode.relabel]
      split
      · simp [mapError_map_ok, moved, advance, Mode.relabel, commutes]
      · rw [← fresh, moved_complete]
        rfl
  | number start digits =>
      simp only [read, moved, Mode.relabel]
      split
      · simp [mapError_map_ok, moved, advance, Mode.relabel, commutes]
      · rw [← fresh, moved_complete]
        rfl
  | operator start signs =>
      simp only [read, moved, Mode.relabel]
      split
      · split
        · simp [mapError_map_ok, moved, advance, Mode.relabel, complete, emit,
            Token.relabel, commutes]
        · simp [mapError_map_ok, moved, advance, Mode.relabel, commutes]
      · rw [← fresh, moved_complete]
        rfl
  | string start quote text escaped =>
      simp only [read, moved, Mode.relabel]
      repeat' split
      all_goals
        simp [mapError_map_ok, moved, advance, Mode.relabel, emit, Token.relabel,
          commutes]

theorem scanRest_moved
    (scanner : Scanner)
    (text : List Char) :
    (scanner.moved change before).scanRest text =
      ((scanner.scanRest text).map
        fun tokens => before.reverse ++ tokens.map (Token.relabel change)).mapError
          (Diagnostic.relabel change) := by
  induction text generalizing scanner with
  | nil =>
      obtain ⟨mode, position, tokens⟩ := scanner
      cases mode <;>
        simp [finish, moved, Mode.relabel, complete, emit, mapError_map_ok, mapError_map_error,
          Token.relabel, Diagnostic.relabel, Diagnostic.withPosition]
  | cons c text ih =>
      rw [scanRest_cons, scanRest_cons, read_moved commutes]
      cases scanner.read c with
      | ok next => exact ih next
      | error diagnostic => rfl

end Moving

/-- A line feed ends what a scanner is in the middle of, if the source could end there. -/
theorem read_lineFeed_of_finish
    {scanner : Scanner}
    {tokens : List Token}
    (finishes : scanner.finish = .ok tokens) :
    ∃ done,
      tokens = done ++ [{ kind := .eof, lexeme := "", position := scanner.position }] ∧
      scanner.read '\n' =
        .ok (atBoundary (scanner.position.after '\n')
          ({ kind := .newline, lexeme := "\n", position := scanner.position } ::
            done.reverse)) := by
  obtain ⟨mode, position, before⟩ := scanner
  cases mode <;> cases finishes <;>
    exact ⟨_, List.reverse_cons, by rw [List.reverse_reverse]; rfl⟩

end Scanner

namespace Token

open Scanner

/-- The token for the end of a line. -/
def lineEnd (position : Position) : Token :=
  { kind := .newline, lexeme := "\n", position := position }

/-- The tokens of a source, a line feed and another source are those of the one, but for its end,
and those of the other.  If it is the other one that cannot be scanned, they are not there for the
same reason. -/
theorem scan_append_lineFeed
    {source : String}
    {tokens : List Token}
    (scanned : scan source = .ok tokens)
    (more : String) :
    ∃ done,
      tokens = done ++
        [{ kind := .eof, lexeme := "", position := Position.start.afterAll source.toList }] ∧
      (∀ token ∈ done, token.kind ≠ .eof) ∧
      scan (source ++ "\n" ++ more) =
        ((scan more).map fun others =>
          done ++ lineEnd (Position.start.afterAll source.toList) ::
            others.map (Token.relabel (Position.below source).behind)).mapError
              (Diagnostic.relabel (Position.below source).behind) := by
  have tiling := (scan_eq_ok_iff_tiling source tokens).1 scanned
  obtain ⟨done, split, others⟩ := tiling.exists_eof
  refine ⟨done, split, others, ?_⟩
  obtain ⟨scanner, reads, finishes⟩ :
      ∃ scanner : Scanner,
        Scanner.initial.readAll source.toList = .ok scanner ∧ scanner.finish = .ok tokens := by
    unfold scan at scanned
    cases reads : Scanner.initial.readAll source.toList with
    | ok scanner => exact ⟨scanner, rfl, by rw [reads] at scanned; exact scanned⟩
    | error diagnostic => rw [reads] at scanned; cases scanned
  obtain ⟨before, splitBefore, readsLineFeed⟩ := read_lineFeed_of_finish finishes
  obtain ⟨rfl, atEnd⟩ := List.append_inj' (splitBefore.symm.trans split) rfl
  have place : scanner.position = Position.start.afterAll source.toList := by
    injection atEnd with sameToken
    injection sameToken
  have rest :
      scan (source ++ "\n" ++ more) =
        scanRest
          (Scanner.initial.moved (Position.below source).behind
            (lineEnd (Position.start.afterAll source.toList) :: before.reverse))
          more.toList := by
    have text : (source ++ "\n" ++ more).toList = source.toList ++ '\n' :: more.toList := by simp
    change scanRest Scanner.initial (source ++ "\n" ++ more).toList = _
    rw [text, scanRest, readAll_append, reads]
    change scanRest scanner ('\n' :: more.toList) = _
    rw [scanRest_cons_of_read readsLineFeed, place]
    rfl
  rw [rest, scanRest_moved (Position.behind_after _)]
  simp only [List.reverse_cons, List.reverse_reverse, List.append_assoc, List.singleton_append]
  rfl

end Token
end TinyScript
