import TinyScript.Proofs.Token.Joining

/-!
# Scanning line by line

Nothing that a scanner is in the middle of outlasts a line feed behind a source that is accepted.
So what stands on the lines below such a source is scanned as it would be on its own, only further
down, and is refused for the reason for which it would be on its own.
-/

namespace TinyScript

/-- The place of a text that a place of its last part is, when so many lines and bytes come before
that part and it begins on a line of its own. -/
def Position.further (lines bytes : Nat) (position : Position) : Position :=
  { line := position.line + lines
    column := position.column
    offset := position.offset + bytes }

theorem Position.behind_below
    (source : String) :
    (below source).behind =
      further (source.toList.count '\n' + 1) (source.utf8ByteSize + 1) := by
  funext position
  rw [behind, further, line_below, offset_below, Nat.add_comm,
    Nat.add_comm (source.utf8ByteSize + 1)]

namespace Token

/-- A source, a line feed and another source are accepted exactly if the other source is.  The
tokens are then those of the first without its end, a token for the line feed where that end was,
and those of the other one, further on by a line and a byte more than the first source has.  If the
other source is refused, so is the whole, with the same diagnostic, but for its place. -/
theorem scan_above_line
    (source more : String)
    (tokens : List Token)
    (accepted : scan source = .ok tokens) :
    ∃ done ending,
      tokens = done ++ [{ kind := .eof, lexeme := "", position := ending }] ∧
      (∀ all, scan (source ++ "\n" ++ more) = .ok all ↔
        ∃ others, scan more = .ok others ∧
          all = done ++ { kind := .newline, lexeme := "\n", position := ending } ::
            others.map fun token =>
              { token with
                position := token.position.further (source.toList.count '\n' + 1)
                  (source.utf8ByteSize + 1) }) ∧
      ∀ diagnostic, scan (source ++ "\n" ++ more) = .error diagnostic ↔
        ∃ fault, scan more = .error fault ∧
          diagnostic =
            { fault with
              position := fault.position.map
                (·.further (source.toList.count '\n' + 1) (source.utf8ByteSize + 1)) } := by
  obtain ⟨done, split, -, joined⟩ := scan_append_lineFeed accepted more
  rw [Position.behind_below] at joined
  refine ⟨done, _, split, fun all => ?_, fun diagnostic => ?_⟩
  · rw [joined]
    cases scan more with
    | ok others =>
      rw [mapError_map_ok]
      constructor
      · rintro ⟨⟩
        exact ⟨others, rfl, rfl⟩
      · rintro ⟨_, ⟨⟩, rfl⟩
        rfl
    | error fault => simp [mapError_map_error]
  · rw [joined]
    cases scan more with
    | ok others => simp [mapError_map_ok]
    | error fault =>
      rw [mapError_map_error]
      constructor
      · rintro ⟨⟩
        exact ⟨fault, rfl, rfl⟩
      · rintro ⟨_, ⟨⟩, rfl⟩
        rfl

/-- A string that goes on for a line, and a character of two bytes behind a comment: on the third
line `$` is refused, where it would be refused on the first. -/
theorem scan_above_line_of_refused :
    ∃ tokens, scan "s = 'a\nb' # é" = .ok tokens ∧
      scan "$" = .error
        { stage := .lexer, message := "unexpected character `$`", position := some ⟨0, 0, 0⟩ } ∧
      scan "s = 'a\nb' # é\n$" = .error
        { stage := .lexer
          message := "unexpected character `$`"
          position := some ⟨2, 0, 15⟩ } := by
  have scanned :
      scan "s = 'a\nb' # é" = .ok
        [{ kind := .identifier, lexeme := "s", position := ⟨0, 0, 0⟩ },
         { kind := .sign .assign, lexeme := "=", position := ⟨0, 2, 2⟩ },
         { kind := .string, lexeme := "a\nb", position := ⟨0, 4, 4⟩ },
         { kind := .eof, lexeme := "", position := ⟨1, 6, 14⟩ }] := by
    rfl
  have refused :
      scan "$" = .error
        { stage := .lexer, message := "unexpected character `$`", position := some ⟨0, 0, 0⟩ } := by
    rfl
  obtain ⟨_, _, -, -, refuses⟩ := scan_above_line "s = 'a\nb' # é" "$" _ scanned
  exact ⟨_, scanned, refused, (refuses _).2 ⟨_, refused, rfl⟩⟩

end Token
end TinyScript
