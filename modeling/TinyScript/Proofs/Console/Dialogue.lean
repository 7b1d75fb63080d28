import TinyScript.Console.Dialogue
import TinyScript.Proofs.Console.Brackets
import TinyScript.Proofs.Grammar.Brackets
import TinyScript.Proofs.Grammar.Joining
import TinyScript.Proofs.Machine.Values

/-!
# A dialogue does not wait for more than a program

The brackets of a program are nested, so none is open behind it, and a dialogue
that has collected a program runs it.
-/

namespace TinyScript

open Token

/-! ## The tokens of a program -/

/-- All tokens of a source that is a program are nested, the one for the end included. -/
theorem Program.exists_nested_of_ofSource
    {source : String}
    {program : Program}
    (accepted : ofSource source = .ok program) :
    ∃ tokens, scan source = .ok tokens ∧ Nested tokens := by
  obtain ⟨tokens, scanned, read⟩ := Grammar.exists_tokens_of_ofSource accepted
  obtain ⟨earlier, rfl, noEnd⟩ := ((scan_eq_ok_iff_tiling source tokens).1 scanned).exists_eof
  have nests := (Grammar.ofTokens_sound read).nests
  rw [Grammar.tokensAhead_append_eof noEnd rfl] at nests
  exact ⟨_, scanned, Nested.append nests (.cons rfl rfl rfl .nil)⟩

/-! ## Lines of a dialogue -/

namespace Brackets

/-- The end of a line opens and closes nothing. -/
theorem depthOf_append_lineFeed
    (text : String) :
    depthOf (text ++ "\n") = depthOf text := by
  rw [depthOf, String.toList_append, List.foldl_append, depthOf]
  generalize text.toList.foldl read initial = brackets
  obtain ⟨mode, depth⟩ := brackets
  change (read _ '\n').depth = depth
  cases mode with
  | code => rfl
  | comment => rfl
  | string quote escaped =>
    simp only [read]
    repeat' split
    all_goals rfl

end Brackets

namespace Dialogue

/-- Lines that leave no bracket open are run, unless there is only one and it is blank or ends the
dialogue. -/
theorem read_of_depthOf_eq_zero
    {pending line : String}
    (closed : Brackets.depthOf (pending ++ line ++ "\n") = 0) :
    read pending line = .run (pending ++ line ++ "\n") ∨
      pending = "" ∧ (read pending line = .leave ∨ read pending line = .wait "") := by
  generalize outcome : read pending line = dialogue
  simp only [read] at outcome
  split at outcome
  case isTrue leaves =>
    rw [Bool.and_eq_true, String.isEmpty_iff] at leaves
    exact .inr ⟨leaves.1, .inl outcome.symm⟩
  case isFalse =>
  split at outcome
  case isTrue skips =>
    rw [Bool.and_eq_true, String.isEmpty_iff] at skips
    exact .inr ⟨skips.1, .inr outcome.symm⟩
  case isFalse =>
    rw [closed] at outcome
    exact .inl outcome.symm

end Dialogue

/-- The brackets of a program are nested: each is closed by its own kind, no beginning of its
tokens closes more than it opens, and none is open at its end.  A dialogue whose lines are a
program therefore runs them and waits for no more; only a blank line and a farewell are not run. -/
theorem Program.nested_of_ofSource
    (source : String)
    (program : Program)
    (accepted : ofSource source = .ok program) :
    ∃ tokens, scan source = .ok tokens ∧ Nested tokens ∧
      (∀ before after, tokens = before ++ after → before.countP closes ≤ before.countP opens) ∧
      Brackets.depthOf source = 0 ∧
      ∀ pending line, source = pending ++ line ∨ source = pending ++ line ++ "\n" →
        Dialogue.read pending line = .run (pending ++ line ++ "\n") ∨
          pending = "" ∧
            (Dialogue.read pending line = .leave ∨ Dialogue.read pending line = .wait "") := by
  obtain ⟨tokens, scanned, nested⟩ := exists_nested_of_ofSource accepted
  have closed : Brackets.depthOf source = 0 := by
    rw [Brackets.depthOf_of_scan scanned, nested.excess_eq_zero]
  refine ⟨tokens, scanned, nested, ?_, closed, ?_⟩
  · intro before after split
    have known := nested.excess_nonneg split
    unfold excess at known
    omega
  · intro pending line entered
    apply Dialogue.read_of_depthOf_eq_zero
    rcases entered with rfl | rfl
    · rw [Brackets.depthOf_append_lineFeed, closed]
    · exact closed

/-- A call over two lines with a list, an object and a string in its brackets: its second line is
run. -/
theorem Program.nested_of_ofSource_of_call :
    ∃ program tokens,
      ofSource "f([y,],\n\x7b'(': x\x7d)" = .ok program ∧
      scan "f([y,],\n\x7b'(': x\x7d)" = .ok tokens ∧
      Nested tokens ∧
      Dialogue.read "f([y,],\n" "\x7b'(': x\x7d)" =
        .run ("f([y,],\n" ++ "\x7b'(': x\x7d)" ++ "\n") := by
  obtain ⟨program, accepted, -⟩ :
      ∃ program, ofSource "f([y,],\n\x7b'(': x\x7d)" = .ok program ∧
        (!program.isEmpty) = true :=
    exists_ok_of_any (by decide +kernel)
  obtain ⟨tokens, scanned, nested, _, _, runs⟩ := nested_of_ofSource _ program accepted
  have lines :
      "f([y,],\n\x7b'(': x\x7d)" =
        "f([y,],\n" ++ "\x7b'(': x\x7d)" := by
    decide +kernel
  refine ⟨program, tokens, accepted, scanned, nested, ?_⟩
  rcases runs _ _ (.inl lines) with run | ⟨nothing, _⟩
  · exact run
  · exact absurd nothing (by decide +kernel)

end TinyScript
