import TinyScript.Text.Placeholder

/-!
# What a filled text depends on

A text is filled in by the meanings of those names only that stand in braces in it
(`fill_congr`), and one without braces stays as it is (`fill_of_noBrace`).  A name in braces cuts a
text into two that are filled in apart from each other (`fill_append_braced`), and where no name in
braces has a meaning, nothing is filled in (`fill_of_unbound`).
-/

namespace TinyScript
namespace Text

/-- A name in braces. -/
def braced (name : String) : List Char :=
  '\x7b' :: (name.toList ++ ['\x7d'])

variable {meaning? other? : String → Option String}

theorem placeholder?_congr
    {inner : List Char}
    (same : isWord inner = true → meaning? (String.ofList inner) = other? (String.ofList inner)) :
    placeholder? meaning? inner = placeholder? other? inner := by
  unfold placeholder?
  split
  · rename_i word
    rw [same word]
  · rfl

/-- A text without an opening brace has no placeholders. -/
theorem fill_of_noBrace
    {text : String}
    (plain : ∀ c ∈ text.toList, c ≠ '\x7b')
    (meaning? : String → Option String) :
    fill meaning? text = text := by
  have kept : ∀ rest : List Char, (∀ c ∈ rest, c ≠ '\x7b') →
      fillFrom meaning? none rest = rest := by
    intro rest
    induction rest with
    | nil => exact fun _ => rfl
    | cons c rest ih =>
      intro each
      rw [List.forall_mem_cons] at each
      rw [fillFrom, if_neg each.1, ih each.2]
  rw [fill, kept _ plain, String.ofList_toList]

/-- What has been read since an opening brace, with that. -/
def reread : Option (List Char) → List Char
  | none => []
  | some inner => '\x7b' :: inner.reverse

theorem fillFrom_congr
    (pending : Option (List Char))
    (rest : List Char)
    (same : ∀ name, isWord name.toList = true → braced name <:+: reread pending ++ rest →
      meaning? name = other? name) :
    fillFrom meaning? pending rest = fillFrom other? pending rest := by
  induction rest generalizing pending with
  | nil => cases pending <;> rfl
  | cons c rest ih =>
    have opened : c = '\x7b' →
        fillFrom meaning? (some []) rest = fillFrom other? (some []) rest := by
      rintro rfl
      exact ih (some []) fun name isWord inside =>
        same name isWord (inside.trans (List.suffix_append _ _).isInfix)
    have closed : fillFrom meaning? none rest = fillFrom other? none rest :=
      ih none fun name isWord inside => same name isWord
        (inside.trans ((List.suffix_cons c rest).trans (List.suffix_append _ _)).isInfix)
    cases pending with
    | none =>
      simp only [fillFrom]
      split
      · exact opened ‹_›
      · rw [closed]
    | some inner =>
      simp only [fillFrom]
      split
      · rw [opened ‹_›]
      · split
        · rename_i closes
          have sameHere :
              placeholder? meaning? inner.reverse = placeholder? other? inner.reverse := by
            refine placeholder?_congr fun isWord =>
              same _ (by simpa using isWord) (List.IsPrefix.isInfix ⟨rest, ?_⟩)
            simp [braced, reread, closes]
          rw [sameHere, closed]
        · exact ih (some (c :: inner)) fun name isWord inside =>
            same name isWord (by simpa [reread] using inside)

/-- A text is filled in alike by two meanings that agree on every name that stands in it in
braces. -/
theorem fill_congr
    {text : String}
    (same : ∀ name, isWord name.toList = true → braced name <:+: text.toList →
      meaning? name = other? name) :
    fill meaning? text = fill other? text :=
  congrArg String.ofList (fillFrom_congr none text.toList same)

/-! ## Placeholders one after the other -/

/-- No brace can stand in a name. -/
theorem not_isBrace_of_continuesWord
    {c : Char}
    (continues : continuesWord c = true) :
    c ≠ '\x7b' ∧ c ≠ '\x7d' := by
  constructor
  · rintro rfl
    exact absurd continues (Bool.eq_false_iff.1 rfl)
  · rintro rfl
    exact absurd continues (Bool.eq_false_iff.1 rfl)

theorem not_isBrace_of_isWord
    {word : List Char}
    (isWord : isWord word = true) :
    ∀ c ∈ word, c ≠ '\x7b' ∧ c ≠ '\x7d' := by
  cases word with
  | nil => simp
  | cons first rest =>
    rw [Text.isWord, Bool.and_eq_true, List.all_eq_true] at isWord
    exact List.forall_mem_cons.2
      ⟨not_isBrace_of_continuesWord (continuesWord_of_beginsWord isWord.1),
        fun c mem => not_isBrace_of_continuesWord (isWord.2 c mem)⟩

/-- An opening brace ends whatever has been begun in front of it. -/
theorem fillFrom_append_opening
    (meaning? : String → Option String)
    (pending : Option (List Char))
    (front back : List Char) :
    fillFrom meaning? pending (front ++ '\x7b' :: back) =
      fillFrom meaning? pending front ++ fillFrom meaning? (some []) back := by
  induction front generalizing pending with
  | nil => cases pending <;> simp [fillFrom]
  | cons c front ih =>
    cases pending with
    | none =>
      simp only [List.cons_append, fillFrom]
      split
      · exact ih (some [])
      · rw [ih none, List.cons_append]
    | some inner =>
      simp only [List.cons_append, fillFrom]
      split
      · simp [ih (some [])]
      · split
        · cases placeholder? meaning? inner.reverse <;> simp [ih none]
        · exact ih (some (c :: inner))

/-- A closing brace ends what has been begun, and what is behind it is filled in on its own. -/
theorem fillFrom_append_closing
    (meaning? : String → Option String)
    (inner : List Char)
    {name : List Char}
    (plain : ∀ c ∈ name, c ≠ '\x7b' ∧ c ≠ '\x7d')
    (back : List Char) :
    fillFrom meaning? (some inner) (name ++ '\x7d' :: back) =
      (placeholder? meaning? (inner.reverse ++ name)).getD
          ('\x7b' :: (inner.reverse ++ name ++ ['\x7d'])) ++
        fillFrom meaning? none back := by
  induction name generalizing inner with
  | nil =>
    simp only [List.nil_append, List.append_nil, fillFrom, if_true]
    cases placeholder? meaning? inner.reverse <;> simp
  | cons c name ih =>
    obtain ⟨first, rest⟩ := List.forall_mem_cons.1 plain
    rw [List.cons_append, fillFrom, if_neg first.1, if_neg first.2, ih (c :: inner) rest]
    simp

/-- A name in braces is replaced by its text if it has one, and is kept if it has none.  What stands
in front of it and what stands behind it are filled in on their own. -/
theorem fill_append_braced
    (meaning? : String → Option String)
    (front back : String)
    {name : String}
    (isWord : isWord name.toList = true) :
    fill meaning? (front ++ ("\x7b" ++ name ++ "\x7d") ++ back) =
      fill meaning? front ++ (meaning? name).getD ("\x7b" ++ name ++ "\x7d") ++
        fill meaning? back := by
  have characters :
      (front ++ ("\x7b" ++ name ++ "\x7d") ++ back).toList =
        front.toList ++ '\x7b' :: (name.toList ++ '\x7d' :: back.toList) := by
    simp
  have filled :
      (placeholder? meaning? name.toList).getD ('\x7b' :: (name.toList ++ ['\x7d'])) =
        ((meaning? name).getD ("\x7b" ++ name ++ "\x7d")).toList := by
    rw [placeholder?, if_pos isWord, String.ofList_toList]
    cases meaning? name <;> simp
  apply String.toList_inj.1
  simp only [fill, characters, fillFrom_append_opening,
    fillFrom_append_closing meaning? [] (not_isBrace_of_isWord isWord), List.reverse_nil,
    List.nil_append, filled, String.toList_ofList, String.toList_append, List.append_assoc]

/-- While no name in braces has a meaning, every character is kept. -/
theorem fillFrom_of_unbound
    {meaning? : String → Option String}
    (pending : Option (List Char))
    (rest : List Char)
    (unbound : ∀ name, isWord name.toList = true → (meaning? name).isSome →
      ¬ braced name <:+: reread pending ++ rest) :
    fillFrom meaning? pending rest = reread pending ++ rest := by
  induction rest generalizing pending with
  | nil => cases pending <;> simp [fillFrom, reread]
  | cons c rest ih =>
    have opened : c = '\x7b' → fillFrom meaning? (some []) rest = '\x7b' :: rest := by
      rintro rfl
      exact ih (some []) fun name isWord bound inside =>
        unbound name isWord bound (inside.trans (List.suffix_append _ _).isInfix)
    have closed : fillFrom meaning? none rest = rest :=
      ih none fun name isWord bound inside => unbound name isWord bound
        (inside.trans ((List.suffix_cons c rest).trans (List.suffix_append _ _)).isInfix)
    cases pending with
    | none =>
      simp only [fillFrom]
      split
      · rename_i opens
        rw [opened opens, opens]
        rfl
      · rw [closed]
        rfl
    | some inner =>
      simp only [fillFrom]
      split
      · rename_i opens
        rw [opened opens, opens]
        simp [reread]
      · split
        · rename_i closes
          have missing : placeholder? meaning? inner.reverse = none := by
            rw [placeholder?]
            split
            · rename_i isWord
              rw [Option.map_eq_none_iff, ← Option.not_isSome_iff_eq_none]
              intro bound
              refine unbound (String.ofList inner.reverse) (by simpa using isWord) bound
                (List.IsPrefix.isInfix ⟨rest, ?_⟩)
              simp [braced, reread, closes]
            · rfl
          simp [missing, closed, reread, closes]
        · have goesOn := ih (some (c :: inner)) fun name isWord bound inside =>
            unbound name isWord bound (by simpa [reread] using inside)
          simpa [reread] using goesOn

/-- A text in which no name with a meaning stands in braces stays as it is. -/
theorem fill_of_unbound
    {meaning? : String → Option String}
    {text : String}
    (unbound : ∀ name, isWord name.toList = true → (meaning? name).isSome →
      ¬ braced name <:+: text.toList) :
    fill meaning? text = text := by
  rw [fill, fillFrom_of_unbound none text.toList unbound]
  exact String.ofList_toList

end Text
end TinyScript
