import TinyScript.Proofs.Grammar.Faults
import TinyScript.Proofs.Text.Lines
import TinyScript.Proofs.Token.Faults

/-!
# What is shown of a source that is no program

A source is refused at a character, a string or a token.  The diagnostic shows the
line around that place with carets under it.  Behind the last line feed of a source
there is no line, so a source that ends there and should have gone on is refused
without one.
-/

namespace TinyScript

open Token

/-! ## The line of a diagnostic -/

namespace Diagnostic

variable (diagnostic : Diagnostic) (source : String)

@[simp] theorem stage_withSource :
    (diagnostic.withSource source).stage = diagnostic.stage := by
  unfold withSource
  repeat' split
  all_goals rfl

@[simp] theorem message_withSource :
    (diagnostic.withSource source).message = diagnostic.message := by
  unfold withSource
  repeat' split
  all_goals rfl

@[simp] theorem position_withSource :
    (diagnostic.withSource source).position = diagnostic.position := by
  unfold withSource
  repeat' split
  all_goals simp_all

@[simp] theorem width_withSource :
    (diagnostic.withSource source).width = diagnostic.width := by
  unfold withSource
  repeat' split
  all_goals rfl

variable {diagnostic source}

/-- A diagnostic at a place of a source shows the line around it. -/
theorem snippet_withSource
    {before rest : List Char}
    (bare : diagnostic.snippet = none)
    (split : source.toList = before ++ rest)
    (place : diagnostic.position = some (Position.start.afterAll before)) :
    (diagnostic.withSource source).snippet =
      if Text.lastLine before = [] ∧ rest = [] then none
      else
        some (pointer (Text.lineAround before rest) (Position.start.afterAll before).column
          diagnostic.width) := by
  have line : (Position.start.afterAll before).line = before.count '\n' := by
    rw [Position.line_afterAll]
    exact Nat.zero_add _
  have around := Text.getElem?_lines_append before rest
  simp only [withSource, place, line, split, around]
  by_cases nothing : Text.lastLine before = [] ∧ rest = []
  · simpa only [if_pos nothing] using bare
  · simp only [if_neg nothing]

end Diagnostic

/-! ## Places of tokens -/

/-- A token stands at a place of its source; what stands at the end of the source has no text. -/
theorem Token.Tiling.exists_place
    {position : Position}
    {text : List Char}
    {tokens : List Token}
    (tiling : Tiling position text tokens)
    {token : Token}
    (mem : token ∈ tokens) :
    ∃ before rest, text = before ++ rest ∧ token.position = position.afterAll before ∧
      (rest = [] → token.lexeme = "") := by
  obtain ⟨earlier, rfl, noEnd⟩ := tiling.exists_eof
  rcases List.mem_append.1 mem with isEarlier | isLast
  · obtain ⟨before, slice, beyond, split, place, spelled⟩ :=
      tiling.exists_slice token mem (noEnd token isEarlier)
    refine ⟨before, slice ++ beyond, split, place, fun nothing => ?_⟩
    exact absurd (List.append_eq_nil_iff.1 nothing).1 spelled.slice_ne_nil
  · obtain rfl := List.mem_singleton.1 isLast
    exact ⟨text, [], (List.append_nil _).symm, rfl, fun _ => rfl⟩

/-- The tokens that the grammar is given are all tokens of the source. -/
theorem Program.mem_of_scan
    {source : String}
    {tokens : List Token}
    (scanned : scan source = .ok tokens)
    {token : Token}
    (given : token ∈ endToken tokens :: tokensAhead tokens) :
    token ∈ tokens := by
  rcases List.mem_cons.1 given with rfl | isAhead
  · obtain ⟨earlier, split, -⟩ := ((scan_eq_ok_iff_tiling source tokens).1 scanned).exists_eof
    cases found : tokens.find? (·.kind == .eof) with
    | none => simp [split] at found
    | some last =>
      rw [endToken, found]
      exact List.mem_of_find?_eq_some found
  · exact (List.takeWhile_sublist _).subset isAhead

/-- A source that is refused is refused at a place in it: by the scanner for one character, or by
the grammar for a token that stands there.  Shown is the line around that place, and below it one
caret for each character of the token, or a single one for the end of the source and for a target
that cannot be declared.  Only at the end of a source that ends a line no line is shown. -/
theorem Program.shows_fault_of_ofSource
    (source : String)
    (diagnostic : Diagnostic)
    (refused : ofSource source = .error diagnostic) :
    ∃ before rest,
      source.toList = before ++ rest ∧
      diagnostic.position = some (Position.start.afterAll before) ∧
      (diagnostic.stage = .lexer ∧ diagnostic.width = 1 ∨
        diagnostic.stage = .parser ∧ ∃ tokens token,
          scan source = .ok tokens ∧ token ∈ tokens ∧
          token.position = Position.start.afterAll before ∧
          (diagnostic.width = token.width ∨
            diagnostic.message = "invalid declaration target" ∧ diagnostic.width = 1)) ∧
      (rest = [] → diagnostic.width = 1) ∧
      diagnostic.snippet =
        if Text.lastLine before = [] ∧ rest = [] then none
        else
          some (Diagnostic.pointer (Text.lineAround before rest)
            (Position.start.afterAll before).column diagnostic.width) := by
  unfold ofSource at refused
  cases scanned : scan source with
  | error fault =>
    rw [scanned] at refused
    cases refused
    obtain ⟨before, c, rest, message, tokens, split, -, rfl, -⟩ :=
      Scanner.exists_fault_of_scan scanned
    refine ⟨before, c :: rest, split, by simp, .inl (by simp), by simp, ?_⟩
    rw [Diagnostic.snippet_withSource rfl split rfl, Diagnostic.width_withSource]
  | ok tokens =>
    rw [scanned] at refused
    change (ofTokens tokens).mapError _ = _ at refused
    cases outcome : ofTokens tokens with
    | ok program =>
      rw [outcome] at refused
      cases refused
    | error fault =>
      rw [outcome] at refused
      cases refused
      obtain ⟨stage, bare, token, among, place, width⟩ := Grammar.blames_of_ofTokens outcome
      have tiling := (scan_eq_ok_iff_tiling source tokens).1 scanned
      have mem := mem_of_scan scanned among
      obtain ⟨before, rest, split, tokenPlace, atEnd⟩ := tiling.exists_place mem
      rw [tokenPlace] at place
      refine ⟨before, rest, split, by simp [place], .inr ⟨by simp [stage], tokens, token, rfl, mem,
        tokenPlace, by simpa using width⟩, ?_, ?_⟩
      · intro nothing
        rw [Diagnostic.width_withSource]
        rcases width with width | ⟨-, width⟩
        · rw [width, Token.width, atEnd nothing]
          rfl
        · exact width
      · rw [Diagnostic.snippet_withSource bare split place, Diagnostic.width_withSource]

/-- A diagnostic of a source that is refused. -/
def Program.fault? : Except Diagnostic Program → Option Diagnostic
  | .error diagnostic => some diagnostic
  | .ok _ => none

/-- A result with a fault is this fault. -/
theorem Program.eq_error_of_fault?
    {result : Except Diagnostic Program}
    {diagnostic : Diagnostic}
    (isFault : fault? result = some diagnostic) :
    result = .error diagnostic := by
  cases result with
  | error other => exact congrArg Except.error (Option.some.inj isFault)
  | ok program => cases isFault

/-- A token in the middle of a line, and the line around it. -/
theorem Program.shows_fault_of_ofSource_of_keyword :
    let diagnostic : Diagnostic :=
      { stage := .parser
        message := "unexpected token `else`"
        position := some { line := 1, column := 2, offset := 4 }
        width := 4
        snippet := some "y else\n  ^^^^" }
    ofSource "x\ny else\r\n" = .error diagnostic ∧
      ∃ before rest,
        "x\ny else\r\n".toList = before ++ rest ∧
        diagnostic.position = some (Position.start.afterAll before) ∧
        diagnostic.snippet =
          if Text.lastLine before = [] ∧ rest = [] then none
          else
            some (Diagnostic.pointer (Text.lineAround before rest)
              (Position.start.afterAll before).column diagnostic.width) := by
  intro diagnostic
  have refused : ofSource "x\ny else\r\n" = .error diagnostic :=
    eq_error_of_fault? (by decide +kernel)
  obtain ⟨before, rest, split, place, -, -, snippet⟩ := shows_fault_of_ofSource _ _ refused
  exact ⟨refused, before, rest, split, place, snippet⟩

/-- A source that goes on behind its last line feed but is over is refused on a line that is not
shown: neither the empty line nor a caret stands in the diagnostic. -/
theorem Program.no_snippet_behind_lineFeed :
    ∃ diagnostic,
      ofSource "x = (\n" = .error diagnostic ∧
      diagnostic.position = some (Position.start.afterAll "x = (\n".toList) ∧
      diagnostic.snippet = none ∧
      diagnostic.snippet ≠
        some (Diagnostic.pointer (Text.lineAround "x = (\n".toList [])
          (Position.start.afterAll "x = (\n".toList).column 1) := by
  have refused :
      ofSource "x = (\n" =
        .error
          { stage := .parser
            message := "unexpected end of input"
            position := some { line := 1, column := 0, offset := 6 } } :=
    eq_error_of_fault? (by decide +kernel)
  exact ⟨_, refused, rfl, rfl, nofun⟩

end TinyScript
