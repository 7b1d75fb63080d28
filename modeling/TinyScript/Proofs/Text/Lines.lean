import Mathlib.Data.List.Induction
import TinyScript.Position
import TinyScript.Text.Lines

/-!
# The line around a place

The lines of a text are found from its beginning.  Here they are found from a
place in it: the line around a place is what stands before it since the last line
feed and what stands behind it up to the next one.  The number of line feeds
before the place says which line that is, and there is none at the end of a text
that ends a line.
-/

namespace TinyScript
namespace Text

/-- What stands behind the last line feed of a text. -/
def lastLine (text : List Char) : List Char :=
  (text.reverse.takeWhile (· != '\n')).reverse

/-- The line, without its ending, around the place between two parts of a text. -/
def lineAround (before rest : List Char) : List Char :=
  withoutEnding (lastLine before ++ (takeLine rest).1)

/-! ## Line by line -/

theorem withoutEnding_cons
    {c : Char}
    {line : List Char}
    (more : line ≠ [])
    (noEnding : ¬ (c = '\r' ∧ line = ['\n'])) :
    withoutEnding (c :: line) = c :: withoutEnding line := by
  obtain ⟨back, rfl⟩ : ∃ back, line = List.reverse back := ⟨line.reverse, by simp⟩
  unfold withoutEnding
  rw [List.reverse_cons, List.reverse_reverse]
  match back with
  | [] => simp at more
  | [d] =>
    by_cases lineFeed : d = '\n'
    · have noReturn : c ≠ '\r' := by
        rintro rfl
        simp [lineFeed] at noEnding
      simp [lineFeed, noReturn]
    · simp [lineFeed]
  | d :: e :: others =>
    by_cases lineFeed : d = '\n'
    · by_cases carriageReturn : e = '\r'
      · simp [lineFeed, carriageReturn]
      · simp [lineFeed, carriageReturn]
    · simp [lineFeed]

theorem takeLine_cons_of_ne
    {c : Char}
    (noLineFeed : c ≠ '\n')
    (rest : List Char) :
    takeLine (c :: rest) = (c :: (takeLine rest).1, (takeLine rest).2) := by
  rw [takeLine, if_neg noLineFeed]

theorem takeLine_ne_nil
    {text : List Char}
    (more : text ≠ []) :
    (takeLine text).1 ≠ [] := by
  cases text with
  | nil => exact absurd rfl more
  | cons c rest =>
    rw [takeLine]
    split <;> simp

/-- A text that is not empty has its first line, and then the lines behind that. -/
theorem lines_eq_cons
    {text : List Char}
    (more : text ≠ []) :
    lines text = withoutEnding (takeLine text).1 :: lines (takeLine text).2 := by
  fun_induction lines text with
  | case1 => exact absurd rfl more
  | case2 rest => rfl
  | case3 rest => rfl
  | case4 c rest noLineFeed noReturn none ih =>
    have last : rest = [] := by
      by_contra more
      rw [ih more] at none
      cases none
    subst last
    rw [takeLine_cons_of_ne noLineFeed]
    have unended : withoutEnding [c] = [c] := by
      unfold withoutEnding
      split <;> simp_all
    simp [takeLine, unended, lines]
  | case5 c rest noLineFeed noReturn line others found ih =>
    have more : rest ≠ [] := by
      rintro rfl
      cases found
    have known := ih more
    rw [found] at known
    obtain ⟨rfl, rfl⟩ := List.cons.inj known
    rw [takeLine_cons_of_ne noLineFeed, withoutEnding_cons (takeLine_ne_nil more)]
    rintro ⟨isReturn, ending⟩
    have split := takeLine_append rest
    rw [ending] at split
    exact noReturn _ isReturn split.symm

theorem takeLine_append_of_not_mem
    {front : List Char}
    (oneLine : '\n' ∉ front)
    (rest : List Char) :
    takeLine (front ++ rest) = (front ++ (takeLine rest).1, (takeLine rest).2) := by
  induction front with
  | nil => rfl
  | cons c front ih =>
    rw [List.mem_cons, not_or] at oneLine
    rw [List.cons_append, takeLine_cons_of_ne (Ne.symm oneLine.1), ih oneLine.2]
    rfl

/-! ## Around a place -/

theorem lastLine_append_lineFeed
    (text more : List Char) :
    lastLine (text ++ '\n' :: more) = lastLine more := by
  unfold lastLine
  rw [List.reverse_append, List.reverse_cons, List.append_assoc, List.takeWhile_append]
  split
  case isTrue whole =>
    have same := (List.takeWhile_prefix (· != '\n')).eq_of_length whole
    simp [same]
  case isFalse => rfl

theorem lastLine_append_of_not_mem
    {more : List Char}
    (oneLine : '\n' ∉ more)
    (text : List Char) :
    lastLine (text ++ more) = lastLine text ++ more := by
  unfold lastLine
  rw [List.reverse_append, List.takeWhile_append_of_pos]
  · simp
  · intro c mem
    rw [List.mem_reverse] at mem
    exact bne_iff_ne.2 (ne_of_mem_of_not_mem mem oneLine)

/-- The line around a place is the line whose number is counted by the line feeds before it. -/
theorem getElem?_lines_append
    (before rest : List Char) :
    (lines (before ++ rest))[before.count '\n']? =
      if lastLine before = [] ∧ rest = [] then none else some (lineAround before rest) := by
  -- The part of the first line that has been passed is kept apart.
  have passed (front : List Char) (oneLine : '\n' ∉ front) :
      (lines (front ++ (before ++ rest)))[before.count '\n']? =
        if lastLine (front ++ before) = [] ∧ rest = [] then none
        else some (lineAround (front ++ before) rest) := by
    induction before generalizing front with
    | nil =>
      have here : lastLine front = front := by
        simpa [lastLine] using lastLine_append_of_not_mem oneLine []
      rw [List.nil_append, List.append_nil, lineAround, here]
      by_cases nothing : front = [] ∧ rest = []
      · rw [if_pos nothing, nothing.1, nothing.2]
        rfl
      · have more : front ++ rest ≠ [] := by simpa using nothing
        rw [if_neg nothing, lines_eq_cons more, takeLine_append_of_not_mem oneLine]
        rfl
    | cons c before ih =>
      by_cases lineFeed : c = '\n'
      · subst lineFeed
        have more : front ++ '\n' :: (before ++ rest) ≠ [] := by simp
        rw [List.cons_append, lines_eq_cons more, takeLine_append_of_not_mem oneLine]
        have known := ih [] (by simp)
        rw [List.nil_append, List.nil_append] at known
        rw [List.count_cons_self, List.getElem?_cons_succ, lineAround, lastLine_append_lineFeed]
        exact known
      · have known := ih (front ++ [c]) (by simp [oneLine, Ne.symm lineFeed])
        rw [List.count_cons_of_ne lineFeed]
        simpa using known
  exact passed [] (by simp)

/-! ## Lines where they stand -/

/-- A line where it stands in a text: another line ends just above it, if any does, and it is
ended by the next line feed, with a carriage return before that, or by the end of the text. -/
structure IsLineOf (text above line ending below : List Char) : Prop where
  split : text = above ++ (line ++ (ending ++ below))
  begins : above = [] ∨ above.getLast? = some '\n'
  oneLine : '\n' ∉ line
  ends :
    ending = ['\r', '\n'] ∨
      ending = ['\n'] ∧ line.getLast? ≠ some '\r' ∨
      ending = [] ∧ below = []

theorem not_mem_lastLine (text : List Char) : '\n' ∉ lastLine text := by
  unfold lastLine
  rw [List.mem_reverse]
  intro mem
  simpa using List.all_eq_true.1 List.all_takeWhile _ mem

/-- Before the last line of a text stands a line feed, unless nothing does. -/
theorem exists_append_lastLine (text : List Char) :
    ∃ above, text = above ++ lastLine text ∧ (above = [] ∨ above.getLast? = some '\n') := by
  refine ⟨(text.reverse.dropWhile (· != '\n')).reverse, ?_, ?_⟩
  · rw [lastLine, ← List.reverse_append, List.takeWhile_append_dropWhile, List.reverse_reverse]
  · rw [List.getLast?_reverse, List.reverse_eq_nil_iff]
    cases left : text.reverse.dropWhile (· != '\n') with
    | nil => exact .inl rfl
    | cons c rest =>
      have stops := List.head?_dropWhile_not (· != '\n') text.reverse
      exact .inr (by simpa [left] using stops)

theorem withoutEnding_of_not_mem
    {line : List Char}
    (oneLine : '\n' ∉ line) :
    withoutEnding line = line := by
  unfold withoutEnding
  split
  case h_3 => rfl
  all_goals
    rename_i back
    rw [← List.mem_reverse, back] at oneLine
    exact absurd List.mem_cons_self oneLine

theorem withoutEnding_append_lineFeed
    {line : List Char}
    (noReturn : line.getLast? ≠ some '\r') :
    withoutEnding (line ++ ['\n']) = line := by
  unfold withoutEnding
  rw [List.reverse_append]
  cases back : line.reverse with
  | nil => rw [List.reverse_eq_nil_iff.1 back]; rfl
  | cons c rest =>
    rw [List.getLast?_eq_head?_reverse, back] at noReturn
    have other : c ≠ '\r' := fun same => noReturn (congrArg some same)
    rw [← List.reverse_reverse line, back]
    simp [other]

theorem withoutEnding_append_return (line : List Char) :
    withoutEnding (line ++ ['\r', '\n']) = line := by
  simp [withoutEnding]

/-- The first line of a text is ended by a line feed or by the end of the text. -/
theorem exists_line_takeLine (text : List Char) :
    ∃ line ending,
      (takeLine text).1 = line ++ ending ∧ '\n' ∉ line ∧
      (ending = ['\n'] ∨ ending = [] ∧ (takeLine text).2 = []) := by
  induction text with
  | nil => exact ⟨[], [], rfl, by simp, .inr ⟨rfl, rfl⟩⟩
  | cons c rest ih =>
    by_cases lineFeed : c = '\n'
    · subst lineFeed
      exact ⟨[], ['\n'], rfl, by simp, .inl rfl⟩
    · obtain ⟨line, ending, split, oneLine, ends⟩ := ih
      rw [takeLine_cons_of_ne lineFeed, split]
      exact ⟨c :: line, ending, rfl, by simp [oneLine, Ne.symm lineFeed], ends⟩

/-- The first line of a text without its ending, where it stands. -/
theorem exists_isLineOf_takeLine (text : List Char) :
    ∃ ending, IsLineOf text [] (withoutEnding (takeLine text).1) ending (takeLine text).2 := by
  obtain ⟨line, ending, split, oneLine, rfl | ⟨rfl, last⟩⟩ := exists_line_takeLine text
  · have whole : text = line ++ (['\n'] ++ (takeLine text).2) := by
      rw [← List.append_assoc, ← split, takeLine_append]
    by_cases ofReturn : line.getLast? = some '\r'
    · obtain ⟨front, rfl⟩ := List.getLast?_eq_some_iff.1 ofReturn
      have bare : withoutEnding (takeLine text).1 = front := by
        rw [split, List.append_assoc]
        exact withoutEnding_append_return front
      rw [bare]
      refine ⟨['\r', '\n'], by simpa using whole, .inl rfl, ?_, .inl rfl⟩
      exact fun mem => oneLine (List.mem_append_left _ mem)
    · have bare : withoutEnding (takeLine text).1 = line := by
        rw [split, withoutEnding_append_lineFeed ofReturn]
      rw [bare]
      exact ⟨['\n'], whole, .inl rfl, oneLine, .inr (.inl ⟨rfl, ofReturn⟩)⟩
  · rw [List.append_nil] at split
    have bare : withoutEnding (takeLine text).1 = line := by
      rw [split, withoutEnding_of_not_mem oneLine]
    have whole : text = line ++ (takeLine text).2 := by rw [← split, takeLine_append]
    rw [bare]
    exact ⟨[], whole, .inl rfl, oneLine, .inr (.inr ⟨rfl, last⟩)⟩

/-- The line around a place, where it stands: it begins behind the last line feed before the
place. -/
theorem exists_isLineOf_lineAround (before rest : List Char) :
    ∃ above ending,
      before = above ++ lastLine before ∧
      IsLineOf (before ++ rest) above (lineAround before rest) ending (takeLine rest).2 := by
  obtain ⟨above, split, begins⟩ := exists_append_lastLine before
  have first := takeLine_append_of_not_mem (not_mem_lastLine before) rest
  obtain ⟨ending, isLine⟩ := exists_isLineOf_takeLine (lastLine before ++ rest)
  rw [first] at isLine
  refine ⟨above, ending, split, ?_, begins, isLine.oneLine, isLine.ends⟩
  have whole := isLine.split
  rw [List.nil_append] at whole
  rw [lineAround, ← whole, ← List.append_assoc, ← split]

/-- A line keeps what stands in front of its ending. -/
theorem withoutEnding_append
    {front : List Char}
    (goesOn : ∀ c ∈ front.getLast?, c ≠ '\n' ∧ c ≠ '\r')
    (more : List Char) :
    withoutEnding (front ++ more) = front ++ withoutEnding more := by
  induction front with
  | nil => rfl
  | cons c front ih =>
    cases front with
    | nil =>
      obtain ⟨noLineFeed, noReturn⟩ := goesOn c rfl
      cases more with
      | nil => exact withoutEnding_of_not_mem (by simpa using Ne.symm noLineFeed)
      | cons d more => exact withoutEnding_cons (by simp) (by simp [noReturn])
    | cons d front =>
      rw [List.getLast?_cons_cons] at goesOn
      have known := ih goesOn
      rw [List.cons_append, withoutEnding_cons (by simp), known]
      · rfl
      · rintro ⟨-, single⟩
        obtain ⟨rfl, rest⟩ := List.cons.inj single
        obtain ⟨rfl, -⟩ := List.append_eq_nil_iff.1 rest
        exact (goesOn '\n' rfl).1 rfl

end Text

/-- A column counts the characters since the last line feed. -/
theorem Position.column_afterAll
    (text : List Char) :
    (Position.start.afterAll text).column = (Text.lastLine text).length := by
  induction text using List.reverseRecOn with
  | nil => rfl
  | append_singleton text c ih =>
    rw [afterAll_append]
    by_cases lineFeed : c = '\n'
    · subst lineFeed
      rw [Text.lastLine_append_lineFeed]
      rfl
    · rw [Text.lastLine_append_of_not_mem (by simp [Ne.symm lineFeed]), List.length_append, ← ih]
      exact congrArg Position.column (after_of_ne lineFeed _)

end TinyScript
