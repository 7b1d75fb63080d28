/-!
# Positions in a source text

A position counts lines and columns in characters, both from zero, and the
offset in bytes of the text's encoding.
-/

namespace TinyScript

/-- A place in a source text. -/
structure Position where
  /-- The number of line feeds before the place. -/
  line : Nat
  /-- The number of characters since the last line feed. -/
  column : Nat
  /-- The number of bytes before the place. -/
  offset : Nat
  deriving DecidableEq, Repr, Inhabited

namespace Position

/-- The beginning of every text. -/
def start : Position :=
  { line := 0, column := 0, offset := 0 }

/-- The place just behind a character that stands at a given place. -/
def after (position : Position) (c : Char) : Position :=
  if c = '\n' then
    { line := position.line + 1, column := 0, offset := position.offset + c.utf8Size }
  else
    { position with column := position.column + 1, offset := position.offset + c.utf8Size }

theorem after_lineFeed (position : Position) :
    position.after '\n' =
      { line := position.line + 1, column := 0, offset := position.offset + 1 } :=
  rfl

theorem after_of_ne {c : Char} (notLineFeed : c ≠ '\n') (position : Position) :
    position.after c =
      { position with
        column := position.column + 1
        offset := position.offset + c.utf8Size } := by
  simp [after, notLineFeed]

@[simp] theorem offset_after (position : Position) (c : Char) :
    (position.after c).offset = position.offset + c.utf8Size := by
  unfold after
  split <;> rfl

/-- The place just behind a stretch of text that begins at a given place. -/
def afterAll (position : Position) (text : List Char) : Position :=
  text.foldl after position

@[simp] theorem afterAll_nil (position : Position) : position.afterAll [] = position :=
  rfl

@[simp] theorem afterAll_cons (position : Position) (c : Char) (text : List Char) :
    position.afterAll (c :: text) = (position.after c).afterAll text :=
  rfl

theorem afterAll_append (position : Position) (text more : List Char) :
    position.afterAll (text ++ more) = (position.afterAll text).afterAll more :=
  List.foldl_append

/-- Lines are counted by line feeds. -/
theorem line_afterAll (position : Position) (text : List Char) :
    (position.afterAll text).line = position.line + text.count '\n' := by
  induction text generalizing position with
  | nil => rfl
  | cons c rest ih =>
    rw [afterAll_cons, ih]
    by_cases h : c = '\n'
    · subst h
      rw [after_lineFeed, List.count_cons_self]
      show position.line + 1 + _ = _
      omega
    · rw [after_of_ne h, List.count_cons_of_ne h]

/-- Offsets are counted by the bytes of the encoding. -/
theorem offset_afterAll (position : Position) (text : List Char) :
    (position.afterAll text).offset = position.offset + (String.ofList text).utf8ByteSize := by
  induction text generalizing position with
  | nil => rfl
  | cons c rest ih =>
    rw [afterAll_cons, ih, offset_after, String.ofList_cons, String.utf8ByteSize_append,
      String.utf8ByteSize_singleton, Nat.add_assoc]

/-- Readers count lines and columns from one. -/
def describe (position : Position) : String :=
  "line " ++ toString (position.line + 1) ++ ", column " ++ toString (position.column + 1)

end Position
end TinyScript
