/-!
# Tables

A table holds values under texts as keys, in the order in which the keys were
first written.  Writing to a key that is present keeps its place
(`keys_insert_of_contains`), and a new key goes to the end
(`keys_insert_of_not_contains`).
-/

namespace TinyScript

/-- Values under keys, in order of first writing. -/
structure Table (α : Type) where
  /-- The keys with their values, in order. -/
  entries : List (String × α) := []
  deriving Repr

namespace Table

variable {α β : Type}

/-- The table without entries. -/
def empty : Table α :=
  {}

/-- The value under a key, if there is one. -/
def find? (table : Table α) (key : String) : Option α :=
  table.entries.lookup key

/-- Whether there is a value under a key. -/
def contains (table : Table α) (key : String) : Bool :=
  (table.find? key).isSome

/-- The keys in order. -/
def keys (table : Table α) : List String :=
  table.entries.map (·.1)

/-- The values in the order of their keys. -/
def values (table : Table α) : List α :=
  table.entries.map (·.2)

/-- How many keys there are. -/
def size (table : Table α) : Nat :=
  table.entries.length

/-- Writes a value into a list of entries: in place of the value under its key, or at the end. -/
def insertEntry (key : String) (value : α) : List (String × α) → List (String × α)
  | [] => [(key, value)]
  | (other, old) :: rest =>
    if other = key then (key, value) :: rest else (other, old) :: insertEntry key value rest

/-- Writes a value under a key. -/
def insert (table : Table α) (key : String) (value : α) : Table α :=
  { entries := insertEntry key value table.entries }

@[simp] theorem find?_empty (key : String) : (empty : Table α).find? key = none :=
  rfl

@[simp] theorem find?_insert_self (table : Table α) (key : String) (value : α) :
    (table.insert key value).find? key = some value := by
  obtain ⟨entries⟩ := table
  simp only [insert, find?]
  induction entries with
  | nil => simp [insertEntry]
  | cons entry rest ih =>
    by_cases same : entry.1 = key
    · simp [insertEntry, same]
    · rw [insertEntry, if_neg same, List.lookup_cons, beq_false_of_ne (Ne.symm same)]
      exact ih

theorem find?_insert_of_ne {key other : String} (differs : other ≠ key) (table : Table α)
    (value : α) : (table.insert key value).find? other = table.find? other := by
  obtain ⟨entries⟩ := table
  simp only [insert, find?]
  induction entries with
  | nil => simp [insertEntry, List.lookup_cons, beq_false_of_ne differs]
  | cons entry rest ih =>
    obtain ⟨first, old⟩ := entry
    by_cases same : first = key
    · subst same
      simp [insertEntry, List.lookup_cons, beq_false_of_ne differs]
    · simp [insertEntry, same, List.lookup_cons, ih]

/-- A key that is present has a place among the keys. -/
theorem contains_iff_mem_keys {table : Table α} {key : String} :
    table.contains key = true ↔ key ∈ table.keys := by
  obtain ⟨entries⟩ := table
  simp only [contains, find?, keys]
  induction entries with
  | nil => simp
  | cons entry rest ih =>
    by_cases same : key = entry.1
    · simp [same]
    · rw [List.lookup_cons, beq_false_of_ne same, List.map_cons, List.mem_cons]
      simp [same, ih]

/-- Writing to a key that is present moves no key. -/
theorem keys_insert_of_contains {table : Table α} {key : String}
    (present : table.contains key = true) (value : α) :
    (table.insert key value).keys = table.keys := by
  rw [contains_iff_mem_keys] at present
  obtain ⟨entries⟩ := table
  simp only [insert, keys] at present ⊢
  induction entries with
  | nil => simp at present
  | cons entry rest ih =>
    by_cases same : entry.1 = key
    · simp [insertEntry, same]
    · rw [List.map_cons, List.mem_cons] at present
      simp [insertEntry, same, ih (present.resolve_left (Ne.symm same))]

/-- Writing to a new key puts it behind all others. -/
theorem keys_insert_of_not_contains {table : Table α} {key : String}
    (absent : table.contains key = false) (value : α) :
    (table.insert key value).keys = table.keys ++ [key] := by
  have missing : key ∉ table.keys := by
    rw [← contains_iff_mem_keys, absent]
    exact Bool.false_ne_true
  clear absent
  obtain ⟨entries⟩ := table
  simp only [insert, keys] at missing ⊢
  induction entries with
  | nil => rfl
  | cons entry rest ih =>
    rw [List.map_cons, List.mem_cons, not_or] at missing
    simp [insertEntry, Ne.symm missing.1, ih missing.2]

/-- The table that writing pairs one after the other gives. -/
def ofList (pairs : List (String × α)) : Table α :=
  pairs.foldl (fun table pair => table.insert pair.1 pair.2) empty

end Table
end TinyScript
