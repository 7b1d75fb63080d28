import Mathlib.Data.List.Infix
import TinyScript.Console.Dialogue
import TinyScript.Console.Editor
import TinyScript.Proofs.Text.Lines

/-!
# Lines and groups

A dialogue divides its lines into groups, each of which is one piece of source.
Which lines belong together depends on the lines alone, and there is exactly one
way to divide them (`exists_divides`, `Divides.unique`).
-/

namespace TinyScript

/-- What a line is read as that was typed with its ending. -/
def Dialogue.lineOf (reads : List Char → String) (typed : List Char) : String :=
  reads (Text.withoutEnding typed)

/-! ## Editors -/

namespace Editor

/-- A character that an editor may take for a command instead of a part of the line. -/
def IsCommand (c : Char) : Prop :=
  c.toNat < 0x20 ∨ c.toNat = 0x7F

instance decidableIsCommand (c : Char) :
    Decidable (IsCommand c) :=
  inferInstanceAs (Decidable (_ ∨ _))

/-- What is said of line editors that are given a pipe: they take one line after the other off the
front of the input and never give up before its end.  What they make of a line is their own matter,
unless there is no command in it: then it is read as it was typed, without its ending. -/
structure ReadsPipe (editor : Editor) (reads : List Char → String) : Prop where
  ended : editor.read [] = (.ended, [])
  takesLine : ∀ input, input ≠ [] →
    editor.read input =
      (.line (Dialogue.lineOf reads (Text.takeLine input).1), (Text.takeLine input).2)
  asTyped : ∀ line, (∀ c ∈ line, ¬ IsCommand c) → reads line = String.ofList line

/-- The editor that reads every line as it was typed is one of these. -/
theorem readsPipe_plain :
    ReadsPipe plain String.ofList where
  ended := rfl
  takesLine input more := by
    simp [plain, more, Dialogue.lineOf]
  asTyped _ _ := rfl

end Editor

namespace Dialogue

/-- The lines that a dialogue reads from its input if nothing else reads from it. -/
def linesOf (reads : List Char → String) (input : List Char) : List String :=
  (Text.lines input).map reads

/-- Lines in one text, with a line feed behind each. -/
def collect : List String → String
  | [] => ""
  | line :: lines => line ++ "\n" ++ collect lines

/-- A line that is skipped when nothing has been collected. -/
def IsBlank (line : String) : Prop :=
  Text.trim line.toList = []

instance decidableIsBlank (line : String) :
    Decidable (IsBlank line) :=
  inferInstanceAs (Decidable (_ = _))

/-- A line that ends the dialogue when nothing has been collected. -/
def IsFarewell (line : String) : Prop :=
  String.ofList (Text.trim line.toList) ∈ farewells

instance decidableIsFarewell (line : String) :
    Decidable (IsFarewell line) :=
  inferInstanceAs (Decidable (_ ∈ _))

/-- A line that is collected even when nothing has been collected before. -/
def Begins (line : String) : Prop :=
  ¬ IsBlank line ∧ ¬ IsFarewell line

instance decidableBegins (line : String) :
    Decidable (Begins line) :=
  inferInstanceAs (Decidable (_ ∧ _))

/-- Lines of which the last, and each before it, leaves a bracket open. -/
def StaysOpen (lines : List String) : Prop :=
  ∀ front, front <+: lines → front ≠ [] → 0 < Brackets.depthOf (collect front)

/-- Lines that are collected one after the other and then run: the last is the first that leaves
no bracket open. -/
structure IsGroup (group : List String) : Prop where
  begins : ∃ first others, group = first :: others ∧ Begins first
  opens : ∀ front, front <+: group → front ≠ [] → front ≠ group →
    0 < Brackets.depthOf (collect front)
  closes : Brackets.depthOf (collect group) ≤ 0

/-- The lines of a dialogue are divided into groups.  Between them only blank lines are left out,
and behind the last one either nothing is left, or a farewell and whatever follows it, or lines
with a bracket that is never closed. -/
inductive Divides : (lines : List String) → (groups : List (List String)) → Prop
  | nothing : Divides [] []
  | blank {line lines groups} (isBlank : IsBlank line) (rest : Divides lines groups) :
      Divides (line :: lines) groups
  | farewell {line lines} (isFarewell : IsFarewell line) : Divides (line :: lines) []
  | group {group lines groups} (isGroup : IsGroup group) (rest : Divides lines groups) :
      Divides (group ++ lines) (group :: groups)
  | unfinished {line lines} (begins : Begins line) (isOpen : StaysOpen (line :: lines)) :
      Divides (line :: lines) []

/-! ## Lines of an input -/

section Lines

variable {reads : List Char → String}

/-- Input that is not at its end has a next line. -/
theorem linesOf_eq_cons
    {input : List Char}
    (more : input ≠ []) :
    linesOf reads input =
      lineOf reads (Text.takeLine input).1 :: linesOf reads (Text.takeLine input).2 := by
  rw [linesOf, Text.lines_eq_cons more]
  rfl

theorem eq_nil_of_linesOf
    {input : List Char}
    (nothing : linesOf reads input = []) :
    input = [] := by
  by_contra more
  rw [linesOf_eq_cons more] at nothing
  cases nothing

/-- The first line that is read, and the input behind it. -/
theorem exists_of_linesOf_eq_cons
    {input : List Char}
    {line : String}
    {lines : List String}
    (whole : linesOf reads input = line :: lines) :
    input ≠ [] ∧ lineOf reads (Text.takeLine input).1 = line ∧
      linesOf reads (Text.takeLine input).2 = lines := by
  have more : input ≠ [] := by
    rintro rfl
    cases whole
  rw [linesOf_eq_cons more] at whole
  obtain ⟨rfl, rfl⟩ := List.cons.inj whole
  exact ⟨more, rfl, rfl⟩

/-- There are no more lines than characters. -/
theorem length_linesOf_le (input : List Char) :
    (linesOf reads input).length ≤ input.length := by
  induction size : input.length using Nat.strong_induction_on generalizing input with
  | _ size ih =>
    subst size
    by_cases nothing : input = []
    · subst nothing
      rfl
    · have split := congrArg List.length (Text.takeLine_append input)
      have line := List.length_pos_iff.2 (Text.takeLine_ne_nil nothing)
      rw [List.length_append] at split
      have fewer := ih _ (by omega) (Text.takeLine input).2 rfl
      rw [linesOf_eq_cons nothing, List.length_cons]
      omega

end Lines

/-! ## Collected lines -/

/-- Lines are collected one behind the other. -/
theorem collect_append (front lines : List String) :
    collect (front ++ lines) = collect front ++ collect lines := by
  induction front with
  | nil => simp [collect]
  | cons line front ih => simp [collect, ih, String.append_assoc]

theorem collect_concat
    (done : List String)
    (line : String) :
    collect (done ++ [line]) = collect done ++ line ++ "\n" := by
  simp [collect_append, collect, String.append_assoc]

/-- Nothing has been collected as long as there was no line. -/
theorem collect_isEmpty (lines : List String) :
    (collect lines).isEmpty = lines.isEmpty := by
  cases lines with
  | nil => rfl
  | cons line lines =>
    rw [List.isEmpty_cons, Bool.eq_false_iff, ne_eq, String.isEmpty_iff]
    intro empty
    simp [collect] at empty

/-- A blank line is no farewell. -/
theorem not_isFarewell_of_isBlank
    {line : String}
    (isBlank : IsBlank line) :
    ¬ IsFarewell line := by
  rw [IsFarewell, isBlank]
  decide

/-- A blank line is passed over when nothing is pending. -/
theorem read_of_isBlank
    {line : String}
    (isBlank : IsBlank line) :
    read "" line = .wait "" := by
  simp only [read, show Text.trim line.toList = [] from isBlank]
  rfl

/-- A farewell is understood when nothing is pending. -/
theorem read_of_isFarewell
    {line : String}
    (isFarewell : IsFarewell line) :
    read "" line = .leave := by
  have known : farewells.contains (String.ofList (Text.trim line.toList)) = true :=
    List.contains_iff_mem.2 isFarewell
  simp only [read, known]
  rfl

/-- A line that is collected leaves a bracket open, or is the last one of a group. -/
theorem read_collect
    {done : List String}
    {line : String}
    (begins : done = [] → Begins line) :
    read (collect done) line =
      if 0 < Brackets.depthOf (collect (done ++ [line])) then .wait (collect (done ++ [line]))
      else .run (collect (done ++ [line])) := by
  rw [collect_concat]
  cases done with
  | nil =>
    obtain ⟨notBlank, noFarewell⟩ := begins rfl
    have unknown : farewells.contains (String.ofList (Text.trim line.toList)) = false := by
      rw [← Bool.not_eq_true, List.contains_iff_mem]
      exact noFarewell
    have filled : (String.ofList (Text.trim line.toList)).isEmpty = false := by
      rw [← Bool.not_eq_true, String.isEmpty_iff]
      intro empty
      exact notBlank (String.ofList_eq_empty_iff.1 empty)
    simp only [read, unknown, filled, Bool.and_false, Bool.false_eq_true, if_false]
  | cons first done =>
    simp only [read, collect_isEmpty, List.isEmpty_cons, Bool.false_and, Bool.false_eq_true,
      if_false]

/-! ## Open brackets -/

theorem StaysOpen.nil :
    StaysOpen [] := by
  intro front isFront spelled
  exact absurd (List.prefix_nil.1 isFront) spelled

/-- Lines stay open with a further one that leaves a bracket open. -/
theorem StaysOpen.concat
    {done : List String}
    (isOpen : StaysOpen done)
    {line : String}
    (opens : 0 < Brackets.depthOf (collect (done ++ [line]))) :
    StaysOpen (done ++ [line]) := by
  intro front isFront spelled
  rcases List.prefix_concat_iff.1 isFront with rfl | before
  · exact opens
  · exact isOpen front before spelled

/-- Behind lines that leave a bracket open, others leave one open to the end, or one of them is
the first that does not. -/
theorem StaysOpen.append_or_closes
    {done : List String}
    (isOpen : StaysOpen done)
    (lines : List String) :
    StaysOpen (done ++ lines) ∨
      ∃ front last rest, lines = front ++ last :: rest ∧ StaysOpen (done ++ front) ∧
        Brackets.depthOf (collect (done ++ front ++ [last])) ≤ 0 := by
  induction lines generalizing done with
  | nil => exact .inl (by rwa [List.append_nil])
  | cons line lines ih =>
    by_cases opens : 0 < Brackets.depthOf (collect (done ++ [line]))
    · rcases ih (isOpen.concat opens) with toTheEnd | ⟨front, last, rest, rfl, before, closes⟩
      · exact .inl (by simpa using toTheEnd)
      · exact .inr ⟨line :: front, last, rest, rfl, by simpa using before, by simpa using closes⟩
    · exact .inr ⟨[], line, lines, rfl, by rwa [List.append_nil],
        by simpa using Int.not_lt.1 opens⟩

/-- A group is what is collected while a bracket is open, and the line that closes it. -/
theorem IsGroup.exists_concat
    {group : List String}
    (isGroup : IsGroup group) :
    ∃ front last, group = front ++ [last] ∧ StaysOpen front := by
  rcases List.eq_nil_or_concat' group with rfl | ⟨front, last, rfl⟩
  · obtain ⟨_, _, spelled, _⟩ := isGroup.begins
    cases spelled
  · refine ⟨front, last, rfl, fun other isFront spelled => ?_⟩
    refine isGroup.opens other (isFront.trans (List.prefix_append ..)) spelled ?_
    rintro rfl
    have longer := isFront.length_le
    rw [List.length_append, List.length_singleton] at longer
    omega

/-- Lines that stay open are a group with a last one that closes all brackets. -/
theorem isGroup_concat
    {front : List String}
    {last : String}
    (begins : ∃ first others, front ++ [last] = first :: others ∧ Begins first)
    (isOpen : StaysOpen front)
    (closes : Brackets.depthOf (collect (front ++ [last])) ≤ 0) :
    IsGroup (front ++ [last]) where
  begins := begins
  opens other isFront spelled shorter :=
    isOpen other ((List.prefix_concat_iff.1 isFront).resolve_left shorter) spelled
  closes := closes

/-- Lines do not begin with two groups. -/
theorem IsGroup.eq_of_prefix
    {group other : List String}
    (isGroup : IsGroup group)
    (isOther : IsGroup other)
    (isFront : group <+: other) :
    group = other := by
  by_contra shorter
  obtain ⟨first, others, rfl, _⟩ := isGroup.begins
  have opens := isOther.opens _ isFront (List.cons_ne_nil _ _) shorter
  exact absurd isGroup.closes (Int.not_le.2 opens)

/-- Lines that begin with a group do not leave a bracket open to the end. -/
theorem IsGroup.not_staysOpen
    {group : List String}
    (isGroup : IsGroup group)
    (lines : List String) :
    ¬ StaysOpen (group ++ lines) := by
  intro isOpen
  obtain ⟨first, others, rfl, _⟩ := isGroup.begins
  have opens := isOpen _ (List.prefix_append _ lines) (List.cons_ne_nil _ _)
  exact absurd isGroup.closes (Int.not_le.2 opens)

/-! ## Divisions -/

/-- The lines of every dialogue can be divided. -/
theorem exists_divides (lines : List String) :
    ∃ groups, Divides lines groups := by
  induction size : lines.length using Nat.strong_induction_on generalizing lines with
  | _ size ih =>
    subst size
    cases lines with
    | nil => exact ⟨[], .nothing⟩
    | cons line lines =>
      by_cases isBlank : IsBlank line
      · obtain ⟨groups, rest⟩ := ih lines.length (by simp) lines rfl
        exact ⟨groups, .blank isBlank rest⟩
      by_cases isFarewell : IsFarewell line
      · exact ⟨[], .farewell isFarewell⟩
      have begins : Begins line := ⟨isBlank, isFarewell⟩
      rcases StaysOpen.nil.append_or_closes (line :: lines) with
        toTheEnd | ⟨front, last, others, split, isOpen, closes⟩
      · exact ⟨[], .unfinished begins toTheEnd⟩
      have whole : line :: lines = (front ++ [last]) ++ others := by simpa using split
      have fewer : others.length < (line :: lines).length := by
        rw [whole]
        simp
        omega
      obtain ⟨groups, rest⟩ := ih others.length fewer others rfl
      refine ⟨(front ++ [last]) :: groups, whole ▸ .group (isGroup_concat ?_ isOpen closes) rest⟩
      cases front with
      | nil => exact ⟨last, [], rfl, (List.cons.inj split).1 ▸ begins⟩
      | cons first front => exact ⟨first, front ++ [last], rfl, (List.cons.inj split).1 ▸ begins⟩

/-- What begins a group is neither blank nor a farewell, so the first line decides between the
ways to go on. -/
theorem IsGroup.begins_of_append_eq
    {group lines others : List String}
    {line : String}
    (isGroup : IsGroup group)
    (split : group ++ others = line :: lines) :
    Begins line := by
  obtain ⟨first, rest, rfl, begins⟩ := isGroup.begins
  cases split
  exact begins

/-- A blank line is in no group. -/
theorem Divides.of_blank
    {line : String}
    {lines : List String}
    {groups : List (List String)}
    (divides : Divides (line :: lines) groups)
    (isBlank : IsBlank line) :
    Divides lines groups := by
  generalize whole : line :: lines = all at divides
  cases divides with
  | nothing => cases whole
  | blank _ rest =>
    cases whole
    exact rest
  | farewell isFarewell =>
    cases whole
    exact absurd isFarewell (not_isFarewell_of_isBlank isBlank)
  | group isGroup _ => exact absurd isBlank (isGroup.begins_of_append_eq whole.symm).1
  | unfinished begins _ =>
    cases whole
    exact absurd isBlank begins.1

/-- What comes behind a farewell is in no group. -/
theorem Divides.of_farewell
    {line : String}
    {lines : List String}
    {groups : List (List String)}
    (divides : Divides (line :: lines) groups)
    (isFarewell : IsFarewell line) :
    groups = [] := by
  generalize whole : line :: lines = all at divides
  cases divides with
  | blank isBlank _ =>
    cases whole
    exact absurd isFarewell (not_isFarewell_of_isBlank isBlank)
  | group isGroup _ => exact absurd isFarewell (isGroup.begins_of_append_eq whole.symm).2
  | _ => rfl

/-- A group comes first, and what is behind it is divided into the others. -/
theorem Divides.of_group
    {group lines : List String}
    {groups : List (List String)}
    (divides : Divides (group ++ lines) groups)
    (isGroup : IsGroup group) :
    ∃ others, groups = group :: others ∧ Divides lines others := by
  generalize whole : group ++ lines = all at divides
  cases divides with
  | nothing =>
    obtain ⟨first, others, rfl, _⟩ := isGroup.begins
    cases whole
  | blank isBlank _ => exact absurd isBlank (isGroup.begins_of_append_eq whole).1
  | farewell isFarewell => exact absurd isFarewell (isGroup.begins_of_append_eq whole).2
  | @group other rest others isOther divides =>
    have same : group = other := by
      rcases List.prefix_or_prefix_of_prefix (List.prefix_append group lines)
        (whole ▸ List.prefix_append other rest) with shorter | longer
      · exact isGroup.eq_of_prefix isOther shorter
      · exact (isOther.eq_of_prefix isGroup longer).symm
    subst same
    cases List.append_cancel_left whole
    exact ⟨others, rfl, divides⟩
  | unfinished _ isOpen => exact absurd (whole ▸ isOpen) (isGroup.not_staysOpen lines)

/-- Lines that stay open to the end are in no group. -/
theorem Divides.of_unfinished
    {line : String}
    {lines : List String}
    {groups : List (List String)}
    (divides : Divides (line :: lines) groups)
    (begins : Begins line)
    (isOpen : StaysOpen (line :: lines)) :
    groups = [] := by
  generalize whole : line :: lines = all at divides isOpen
  cases divides with
  | blank isBlank _ =>
    cases whole
    exact absurd isBlank begins.1
  | group isGroup _ => exact absurd isOpen (isGroup.not_staysOpen _)
  | _ => rfl

/-- There is only one way to divide lines. -/
theorem Divides.unique
    {lines : List String}
    {groups others : List (List String)}
    (divides : Divides lines groups)
    (divided : Divides lines others) :
    others = groups := by
  induction divides generalizing others with
  | nothing =>
    generalize whole : [] = all at divided
    cases divided with
    | nothing => rfl
    | group isGroup _ =>
      obtain ⟨first, rest, rfl, _⟩ := isGroup.begins
      cases whole
    | _ => cases whole
  | blank isBlank _ ih => exact ih (divided.of_blank isBlank)
  | farewell isFarewell => exact divided.of_farewell isFarewell
  | group isGroup _ ih =>
    obtain ⟨rest, rfl, divides⟩ := divided.of_group isGroup
    rw [ih divides]
  | unfinished begins isOpen => exact divided.of_unfinished begins isOpen

end Dialogue
end TinyScript
