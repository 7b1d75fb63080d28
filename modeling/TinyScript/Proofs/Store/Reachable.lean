import TinyScript.Proofs.Store.Values

/-!
# What can be reached from a scope

From a scope come the values that it binds, those that the scopes around it bind, and from
these whatever is in an array, in an object or in the scope that a function was made in.
A store holds more than that, since nothing is ever taken out of it.
-/

namespace TinyScript
namespace Store

mutual

/-- A scope can be reached from another one. -/
inductive ReachesScope (store : Store) (home : ScopeRef) : ScopeRef → Prop
  | home : ReachesScope store home home
  | around {ref outer} : ReachesScope store home ref → outer ∈ (store.scope ref).ancestors →
      ReachesScope store home outer
  | captured {function ref} : Reaches store home (.function function ref) →
      ReachesScope store home ref

/-- A value can be reached from a scope. -/
inductive Reaches (store : Store) (home : ScopeRef) : Value → Prop
  | bound {ref entry} : ReachesScope store home ref →
      entry ∈ (store.scope ref).bindings.entries → Reaches store home entry.2.value
  | item {ref value} : Reaches store home (.array ref) → value ∈ store.array ref →
      Reaches store home value
  | property {ref entry} : Reaches store home (.object ref) →
      entry ∈ (store.object ref).entries → Reaches store home entry.2
  | receiver {receiver method} : Reaches store home (.method receiver method) →
      Reaches store home receiver

end

/-- The region that can be reached from a scope, and everything that will be made. -/
def reach (store : Store) (home : ScopeRef) : Region where
  scopes ref := store.ReachesScope home ref ∨ store.scopes.size ≤ ref.index
  arrays ref := store.Reaches home (.array ref) ∨ store.arrays.size ≤ ref.index
  objects ref := store.Reaches home (.object ref) ∨ store.objects.size ≤ ref.index

variable {store : Store} {home : ScopeRef}

/-- Whatever can be reached leads to nothing else. -/
theorem Reaches.holds
    {value : Value}
    (reaches : store.Reaches home value) :
    (store.reach home).Holds value := by
  induction value with
  | array ref => exact .inl reaches
  | object ref => exact .inl reaches
  | function function captured => exact .inl (.captured reaches)
  | method receiver method ih => exact ih (.receiver reaches)
  | _ => trivial

/-- Whatever can be reached is in the store. -/
theorem Reaches.of_all
    {p : Value → Prop}
    (all : store.All p)
    (members : ∀ receiver method, p (.method receiver method) → p receiver) :
    ∀ {value : Value}, store.Reaches home value → p value
  | _, .bound _ mem => (all_iff_allIn.1 all).bindings _ trivial _ mem
  | _, .item _ mem => (all_iff_allIn.1 all).items _ trivial _ mem
  | _, .property _ mem => (all_iff_allIn.1 all).properties _ trivial _ mem
  | _, .receiver reaches => members _ _ (of_all all members reaches)

/-- A property of everything that can be reached holds in a region of the store. -/
theorem allIn_reach
    {p : Value → Prop}
    (each : ∀ value, store.Reaches home value → p value) :
    store.AllIn (store.reach home) p where
  bindings := by
    rintro ref (reaches | new) entry mem
    · exact each _ (.bound reaches mem)
    · simp [scope, new, Table.empty] at mem
  items := by
    rintro ref (reaches | new) item mem
    · exact each _ (.item reaches mem)
    · simp [array, new] at mem
  properties := by
    rintro ref (reaches | new) entry mem
    · exact each _ (.property reaches mem)
    · simp [object, new, Table.empty] at mem
  around := by
    rintro ref (reaches | new) outer mem
    · exact .inl (.around reaches mem)
    · simp [scope, new] at mem
  newScopes _ := .inr
  newArrays _ := .inr
  newObjects _ := .inr

end Store
end TinyScript
