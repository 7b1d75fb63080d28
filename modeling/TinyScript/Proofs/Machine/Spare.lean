import TinyScript.Proofs.Machine.Enlarging
import TinyScript.Proofs.Store.Spare

/-!
# Runs beside a spare scope

A scope that nothing refers to has no influence on a run, and is not changed by it.
-/

namespace TinyScript

/-- An outcome beside a spare scope. -/
abbrev Outcome.beside (spare : Spare) : Outcome → Outcome :=
  Outcome.relocate (.beside spare)

namespace Machine

/-- A machine beside a spare scope. -/
abbrev beside (spare : Spare) : Machine → Machine :=
  Machine.enlarge (.beside spare)

/-! ## Moments -/

/-- The same has been done at two moments, at the second one of them beside a spare scope.  In every
other scope the same names are bound in the same order, as constants or variables, to the same
values, but that functions made in scopes behind the spare one refer to them there. -/
structure SameBeside {State : Type} (spare : Spare) (plain beside : Machine × State) :
    Prop where
  state : beside.2 = plain.2
  outcome : beside.1.outcome? = plain.1.outcome?.map (Outcome.beside spare)
  typeTag : ∀ value : Value, (value.beside spare).typeTag = value.typeTag
  display : ∀ value,
    beside.1.store.display (value.beside spare) = plain.1.store.display value
  output : beside.1.store.output = plain.1.store.output
  arrays : ∀ ref, beside.1.store.array ref = (plain.1.store.array ref).map (Value.beside spare)
  objects : ∀ ref, beside.1.store.object ref = (plain.1.store.object ref).map (Value.beside spare)
  scopes : ∀ ref : ScopeRef,
    beside.1.store.scope (ref.beside spare) = (plain.1.store.scope ref).beside spare
  size : beside.1.store.scopes.size = plain.1.store.scopes.size + 1
  spare : beside.1.store.scope ⟨spare.index⟩ = spare.scope

/-- Runs with corresponding stores and outcomes end in the same way. -/
theorem sameBeside_of_store_eq
    {State : Type}
    {spare : Spare}
    {plain beside : Machine × State}
    (fits : spare.index ≤ plain.1.store.scopes.size)
    (state : beside.2 = plain.2)
    (outcome : beside.1.outcome? = plain.1.outcome?.map (Outcome.beside spare))
    (store : beside.1.store = plain.1.store.beside spare) :
    SameBeside spare plain beside := by
  have disguised := plain.1.store.disguised_beside spare
  exact
    { state := state
      outcome := outcome
      typeTag := fun value => value.typeTag_disguise _
      display := fun value => store ▸ disguised.display value
      output := by rw [store]; rfl
      arrays := fun ref => store ▸ disguised.array ref
      objects := fun ref => store ▸ disguised.object ref
      scopes := fun ref => store ▸ Store.scope_beside fits ref
      size := store ▸ Store.size_beside fits
      spare := store ▸ Store.scope_spare fits }

end Machine
end TinyScript
