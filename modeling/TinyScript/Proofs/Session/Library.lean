import TinyScript.Proofs.Machine.Natives
import TinyScript.Proofs.Store.Growth

/-!
# The values a session begins with

A session begins without values.  The library brings data and its own functions into it, and
nothing else.
-/

namespace TinyScript

variable {p : Value → Prop} (steady : Value.Steady .whole p)
  (natives : ∀ native, (Value.native native).Installed → p (.native native))

namespace Library

include natives in
/-- Functions of the library are all that there is in the object for input and output. -/
theorem all_ioProperties :
    ioProperties.All p := by
  refine Table.all_ofList ?_
  simp only [List.forall_mem_cons]
  exact ⟨natives _ trivial, natives _ trivial, natives _ trivial, by simp⟩

include steady natives in
/-- Functions of the library and numbers are all that there is in the object for mathematics. -/
theorem all_mathProperties :
    mathProperties.All p := by
  refine Table.all_ofList fun pair mem => ?_
  rcases List.mem_append.1 mem with isNative | isConstant
  · obtain ⟨native, known, rfl⟩ := List.mem_map.1 isNative
    refine natives native ?_
    rcases List.mem_append.1 known with isFunction | isOther
    · obtain ⟨function, _, rfl⟩ := List.mem_map.1 isFunction
      trivial
    · simp only [List.mem_cons, List.not_mem_nil, or_false] at isOther
      rcases isOther with rfl | rfl | rfl | rfl <;> trivial
  · obtain ⟨⟨name, value⟩, _, rfl⟩ := List.mem_map.1 isConstant
    exact steady.number value

include steady natives in
/-- The library binds names to its functions, to data and to its two objects. -/
theorem all_bindings
    {io math : ObjectRef}
    (ofIo : p (.object io))
    (ofMath : p (.object math)) :
    ∀ entry ∈ Library.bindings io math, p entry.2 := by
  simp only [Library.bindings, List.map_cons, List.map_nil, List.cons_append, List.nil_append,
    List.forall_mem_cons]
  exact ⟨natives _ trivial, natives _ trivial, natives _ trivial, natives _ trivial,
    natives _ trivial, steady.null, ofIo, ofMath, by simp⟩

/-- What every declaration in a scope preserves, binding names there preserves. -/
theorem declareAll_preserves
    {P : Store → Prop}
    {scope : ScopeRef}
    {bindings : List (String × Value)}
    (declares : ∀ store, ∀ entry ∈ bindings,
      P store → P (store.declare scope entry.1 entry.2 true))
    {store : Store}
    (start : P store) :
    P (declareAll store scope bindings) := by
  induction bindings generalizing store with
  | nil => exact start
  | cons entry bindings ih =>
    rw [declareAll, List.foldl_cons]
    exact ih (fun store entry mem => declares store entry (List.mem_cons_of_mem _ mem))
      (declares store entry List.mem_cons_self start)

include steady natives in
/-- The library brings along data and its functions only. -/
theorem all_install
    {store : Store}
    (all : store.All p)
    (objects : ∀ ref, store.objects.size ≤ ref.index → ref.index < store.objects.size + 2 →
      p (.object ref))
    (scope : ScopeRef) :
    (Library.install store scope).All p := by
  have each := all_bindings steady natives
    (objects ⟨store.objects.size⟩ (Nat.le_refl _) (Nat.lt_add_of_pos_right (by decide)))
    (objects ⟨store.objects.size + 1⟩ (Nat.le_succ _) (Nat.lt_succ_self _))
  have made := ((Store.all_iff_allIn.1 all).newObject (all_ioProperties natives)).newObject
    (all_mathProperties steady natives)
  rw [Library.install]
  simp only [Store.newObject, Array.size_push]
  exact Store.all_iff_allIn.2 (declareAll_preserves
    (fun _ entry mem all => all.declare scope entry.1 (each entry mem) true) made)

/-- The library makes no scopes and changes no chain, and its objects stand behind all others. -/
theorem keeps_install
    (store : Store)
    (scope : ScopeRef) :
    let later := Library.install store scope
    later.scopes.size = store.scopes.size ∧ (∀ ref, later.chain ref = store.chain ref) ∧
      later.objects = (store.objects.push ioProperties).push mathProperties := by
  refine declareAll_preserves
    (P := fun later => later.scopes.size = store.scopes.size ∧
      (∀ ref, later.chain ref = store.chain ref) ∧
      later.objects = (store.objects.push ioProperties).push mathProperties)
    (fun later entry _ ⟨size, chain, objects⟩ => ⟨?_, fun ref => ?_, objects⟩)
    ⟨rfl, fun _ => rfl, rfl⟩
  · rw [Store.size_declare, size]
  · rw [Store.chain_declare, chain]

end Library

namespace Session

/-- There are no values in a session without the library. -/
theorem all_bare :
    bare.store.All p where
  scopes := by simp [bare, Store.newRoot, Store.empty, Table.all_empty]
  arrays := by simp [bare, Store.newRoot, Store.empty]
  objects := by simp [bare, Store.newRoot, Store.empty]

include natives in
/-- A lasting property that the functions of the library have is one of all values of a session with
it. -/
theorem all_standard
    (lasting : Value.Lasting .whole p) :
    standard.store.All p :=
  Library.all_install lasting.steady natives all_bare
    (fun _ _ _ => (lasting.object _).2 trivial) _

theorem installed_bare :
    bare.store.Installed :=
  all_bare

/-- A session with the library has no functions of the surrounding program. -/
theorem installed_standard :
    standard.store.Installed :=
  all_standard (fun _ installed => installed) Value.lasting_installed

end Session
end TinyScript
