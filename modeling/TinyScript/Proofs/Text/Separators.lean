import Mathlib.Data.List.Forall2
import Mathlib.Data.List.Infix

/-!
# Texts that split in one way

A text that consists of a part and what follows it can be split in one way only if the end of the
part is seen: by the first of some characters that the part does not have (`append_inj_of_bare`), or
by a mark that such a character follows, if it follows no mark in the part (`append_inj_of_mark`).
So a list whose items are seen to end is determined by its text (`forall₂_of_intercalate`).
-/

namespace TinyScript
namespace Text

variable {mark : Char} {ends first second rest more : List Char}

/-- No mark stands directly before one of some characters. -/
def Avoids (mark : Char) (ends text : List Char) : Prop :=
  ∀ c ∈ ends, ¬ [mark, c] <:+: text

/-- A text begins with one of some characters. -/
def BeginsIn (ends text : List Char) : Prop :=
  ∃ c ∈ ends, ∃ rest, text = c :: rest

theorem beginsIn_cons
    {c : Char} :
    BeginsIn ends (c :: rest) ↔ c ∈ ends := by
  constructor
  · rintro ⟨c, mem, rest, same⟩
    cases same
    exact mem
  · exact fun mem => ⟨c, mem, rest, rfl⟩

theorem Avoids.of_cons
    {c : Char}
    (avoids : Avoids mark ends (c :: rest)) :
    Avoids mark ends rest :=
  fun d mem inside => avoids d mem (List.infix_cons inside)

/-! ## One part -/

/-- A part without any of the characters that can follow it is determined. -/
theorem append_inj_of_bare
    (firstBare : ∀ c ∈ first, c ∉ ends)
    (secondBare : ∀ c ∈ second, c ∉ ends)
    (restBegins : BeginsIn ends rest)
    (moreBegins : BeginsIn ends more)
    (same : first ++ rest = second ++ more) :
    first = second ∧ rest = more := by
  induction first generalizing second with
  | nil =>
    cases second with
    | nil => exact ⟨rfl, same⟩
    | cons d second =>
      obtain rfl : rest = d :: (second ++ more) := same
      exact absurd (beginsIn_cons.1 restBegins) (secondBare d List.mem_cons_self)
  | cons c first ih =>
    cases second with
    | nil =>
      obtain rfl : c :: (first ++ rest) = more := same
      exact absurd (beginsIn_cons.1 moreBegins) (firstBare c List.mem_cons_self)
    | cons d second =>
      obtain ⟨rfl, tails⟩ := List.cons.inj same
      obtain ⟨rfl, behind⟩ := ih (List.forall_mem_cons.1 firstBare).2
        (List.forall_mem_cons.1 secondBare).2 tails
      exact ⟨rfl, behind⟩

/-- No part ends at a mark inside another one. -/
theorem not_append_mark_of_avoids
    (other : mark ∉ ends)
    (avoids : Avoids mark ends second)
    (begins : BeginsIn ends rest)
    {c : Char}
    {shorter : List Char}
    (inside : second = c :: shorter) :
    mark :: rest ≠ second ++ mark :: more := by
  subst inside
  intro same
  obtain ⟨rfl, tails⟩ := List.cons.inj same
  cases shorter with
  | nil =>
    rw [tails] at begins
    exact other (beginsIn_cons.1 begins)
  | cons d shorter =>
    rw [tails] at begins
    exact avoids d (beginsIn_cons.1 begins) ⟨[], shorter, rfl⟩

/-- A part before a mark is determined, if the mark is seen by what follows it. -/
theorem append_inj_of_mark
    (other : mark ∉ ends)
    (firstAvoids : Avoids mark ends first)
    (secondAvoids : Avoids mark ends second)
    (restBegins : BeginsIn ends rest)
    (moreBegins : BeginsIn ends more)
    (same : first ++ mark :: rest = second ++ mark :: more) :
    first = second ∧ rest = more := by
  induction first generalizing second with
  | nil =>
    cases second with
    | nil => exact ⟨rfl, (List.cons.inj same).2⟩
    | cons d second =>
      exact absurd same (not_append_mark_of_avoids other secondAvoids restBegins rfl)
  | cons c first ih =>
    cases second with
    | nil => exact absurd same.symm (not_append_mark_of_avoids other firstAvoids moreBegins rfl)
    | cons d second =>
      obtain ⟨rfl, tails⟩ := List.cons.inj same
      obtain ⟨rfl, behind⟩ := ih firstAvoids.of_cons secondAvoids.of_cons tails
      exact ⟨rfl, behind⟩

/-! ## Lists -/

theorem intercalate_cons_cons_append
    (text next : List Char)
    (texts : List (List Char))
    (rest : List Char) :
    [',', ' '].intercalate (text :: next :: texts) ++ rest =
      text ++ ',' :: ' ' :: ([',', ' '].intercalate (next :: texts) ++ rest) := by
  simp [List.intercalate_cons_cons]

/-- A list begins with the text of its first item. -/
theorem exists_intercalate_cons
    (text : List Char)
    (texts : List (List Char)) :
    ∃ others, [',', ' '].intercalate (text :: texts) = text ++ others := by
  cases texts with
  | nil => exact ⟨[], by simp⟩
  | cons next texts => exact ⟨_, by rw [List.intercalate_cons_cons, List.append_assoc]⟩

section Lists

variable {α β : Type} {xs : List α} {ys : List β} {left : α → List Char} {right : β → List Char}
variable {related : α → β → Prop} {close : Char}

/-- Items with commas between them and a bracket behind them are determined, if each of them is by
what follows it. -/
theorem forall₂_of_intercalate_cons
    {x : α}
    {y : β}
    (closes : close ∈ ends)
    (comma : ',' ∈ ends)
    (noComma : close ≠ ',')
    (each : ∀ a ∈ x :: xs, ∀ b ∈ y :: ys, ∀ rest more, BeginsIn ends rest → BeginsIn ends more →
      left a ++ rest = right b ++ more → related a b ∧ rest = more)
    (same :
      [',', ' '].intercalate ((x :: xs).map left) ++ close :: rest =
        [',', ' '].intercalate ((y :: ys).map right) ++ close :: more) :
    List.Forall₂ related (x :: xs) (y :: ys) ∧ rest = more := by
  have closed : ∀ text, BeginsIn ends (close :: text) := fun _ => beginsIn_cons.2 closes
  have goesOn : ∀ text, BeginsIn ends (',' :: text) := fun _ => beginsIn_cons.2 comma
  induction xs generalizing x y ys with
  | nil =>
    have first := each x List.mem_cons_self y List.mem_cons_self
    cases ys with
    | nil =>
      simp only [List.map_cons, List.map_nil, List.intercalate_singleton] at same
      obtain ⟨alike, behind⟩ := first _ _ (closed _) (closed _) same
      exact ⟨.cons alike .nil, (List.cons.inj behind).2⟩
    | cons next ys =>
      simp only [List.map_cons, List.map_nil, List.intercalate_singleton,
        intercalate_cons_cons_append] at same
      obtain ⟨-, behind⟩ := first _ _ (closed _) (goesOn _) same
      exact absurd (List.cons.inj behind).1 noComma
  | cons after xs ih =>
    have first := each x List.mem_cons_self y List.mem_cons_self
    cases ys with
    | nil =>
      simp only [List.map_cons, List.map_nil, List.intercalate_singleton,
        intercalate_cons_cons_append] at same
      obtain ⟨-, behind⟩ := first _ _ (goesOn _) (closed _) same
      exact absurd (List.cons.inj behind).1.symm noComma
    | cons next ys =>
      simp only [List.map_cons, intercalate_cons_cons_append] at same
      obtain ⟨alike, behind⟩ := first _ _ (goesOn _) (goesOn _) same
      obtain ⟨others, ending⟩ := ih
        (fun a inLeft b inRight =>
          each a (List.mem_cons_of_mem x inLeft) b (List.mem_cons_of_mem y inRight))
        (List.cons.inj (List.cons.inj behind).2).2
      exact ⟨.cons alike others, ending⟩

/-- A list is determined also where it may be without items, if no first item begins with the
bracket behind. -/
theorem forall₂_of_intercalate
    (closes : close ∈ ends)
    (comma : ',' ∈ ends)
    (noComma : close ≠ ',')
    (leftOpens : ∀ x ∈ xs.head?, ∀ text behind, left x ++ text ≠ close :: behind)
    (rightOpens : ∀ y ∈ ys.head?, ∀ text behind, right y ++ text ≠ close :: behind)
    (each : ∀ a ∈ xs, ∀ b ∈ ys, ∀ rest more, BeginsIn ends rest → BeginsIn ends more →
      left a ++ rest = right b ++ more → related a b ∧ rest = more)
    (same :
      [',', ' '].intercalate (xs.map left) ++ close :: rest =
        [',', ' '].intercalate (ys.map right) ++ close :: more) :
    List.Forall₂ related xs ys ∧ rest = more := by
  cases xs with
  | nil =>
    cases ys with
    | nil => exact ⟨.nil, by simpa using same⟩
    | cons y ys =>
      obtain ⟨others, begins⟩ := exists_intercalate_cons (right y) (ys.map right)
      rw [List.map_cons, begins, List.append_assoc] at same
      exact absurd same.symm (rightOpens y rfl _ _)
  | cons x xs =>
    cases ys with
    | nil =>
      obtain ⟨others, begins⟩ := exists_intercalate_cons (left x) (xs.map left)
      rw [List.map_cons, begins, List.append_assoc] at same
      exact absurd same (leftOpens x rfl _ _)
    | cons y ys => exact forall₂_of_intercalate_cons closes comma noComma each same

end Lists

end Text
end TinyScript
