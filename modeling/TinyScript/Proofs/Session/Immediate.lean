import TinyScript.Proofs.Machine.Inset
import TinyScript.Proofs.Machine.Spare
import TinyScript.Proofs.Session.History

/-!
# Functions that are called on the spot

An expression without declarations and functions, which assigns to bound names only, does the same
when it is the body of a function that is called on the spot (`run_calledOnTheSpot`).  The call
only leaves a scope behind, in which nothing is bound and which nothing refers to.
-/

namespace TinyScript

/-! ## A new scope is a spare one -/

/-- The scope that would be made inside another one. -/
def Store.spareInside (store : Store) (scope : ScopeRef) : Spare where
  index := store.scopes.size
  scope := { ancestors := store.chain scope, bindings := .empty }

/-- A value that remembers known scopes only remembers none behind them. -/
theorem Value.beside_of_known
    {store : Store}
    {value : Value}
    (known : Layout.known.OfValue store value)
    {spare : Spare}
    (last : spare.index = store.scopes.size) :
    value.beside spare = value := by
  induction value with
  | function made captured =>
    have before : captured.index < spare.index := last ▸ known
    exact congrArg (Value.function made) (ScopeRef.beside_of_lt before)
  | method receiver member ih => exact congrArg (Value.method · member) (ih known)
  | _ => rfl

namespace Session.Rooted

variable {session : Session} (rooted : session.Rooted)

include rooted

/-- The scopes of a chain are known. -/
theorem chain_known
    {ref : ScopeRef}
    (known : ref.index < session.store.scopes.size) :
    ∀ outer ∈ session.store.chain ref, outer.index < session.store.scopes.size := by
  intro outer mem
  rcases List.mem_cons.1 mem with rfl | around
  · exact known
  · exact Nat.lt_trans (rooted.forest.lt_of_mem_ancestors around) known

/-- A scope stays as it is when the spare one stands behind all others. -/
theorem scope_beside_of_known
    {spare : Spare}
    (last : spare.index = session.store.scopes.size)
    {ref : ScopeRef}
    (known : ref.index < session.store.scopes.size) :
    (session.store.scope ref).beside spare = session.store.scope ref := by
  have around : ∀ outer ∈ (session.store.scope ref).ancestors, outer.index < spare.index :=
    fun outer mem => last ▸ rooted.chain_known known outer (List.mem_cons_of_mem ref mem)
  have bindings : (session.store.scope ref).bindings.All fun binding =>
      binding.beside spare = binding :=
    (rooted.values.bindings ref trivial).imp fun binding ofValue =>
      congrArg (fun value => { binding with value := value }) (Value.beside_of_known ofValue last)
  exact congrArg₂ Scope.mk (ScopeRef.map_beside_of_lt around) (Table.map_of_forall bindings)

/-- To make a scope is to put a spare one behind all others. -/
theorem newChild_eq_beside
    (scope : ScopeRef) :
    (session.store.newChild scope).2 =
      session.store.beside (session.store.spareInside scope) := by
  have values := Store.all_iff_allIn.2 rooted.values
  have same : ∀ value, Layout.known.OfValue session.store value →
      value.beside (session.store.spareInside scope) = value :=
    fun value known => Value.beside_of_known known rfl
  have fits : (session.store.spareInside scope).index ≤ session.store.scopes.size :=
    Nat.le_refl _
  refine Store.ext_parts (Array.ext_getElem? fun index => ?_) ?_ ?_ rfl
  · rw [Store.getElem?_beside fits]
    simp only [Store.newChild, Array.getElem?_push, Store.spareInside]
    by_cases last : index = session.store.scopes.size
    · simp [last]
    by_cases known : index < session.store.scopes.size
    · have found : session.store.scope ⟨index⟩ = session.store.scopes[index] := by
        simp [Store.scope, known]
      simp only [last, known, if_true, if_false, Array.getElem?_eq_getElem known, Option.map_some]
      rw [← found, rooted.scope_beside_of_known rfl known]
    · have unknown : session.store.scopes.size ≤ index - 1 := by omega
      simp [last, known, unknown]
  · refine ((Array.map_congr_left fun items mem => ?_).trans (Array.map_id _)).symm
    refine (Array.map_congr_left fun item itemMem => ?_).trans (Array.map_id _)
    exact same item (values.arrays items mem item itemMem)
  · refine ((Array.map_congr_left fun properties mem => ?_).trans (Array.map_id _)).symm
    exact Table.map_of_forall ((values.objects properties mem).imp same)

end Session.Rooted

/-! ## Runs in an empty scope -/

/-- A name is bound in the scope of a session or around it. -/
def Session.binds (session : Session) (name : String) : Bool :=
  (session.store.lookup? session.scope name).isSome

namespace Session.Rooted

variable {session : Session} (rooted : session.Rooted)

include rooted

/-- The spare scope has no names, whatever has been done to the others. -/
theorem inset_beside
    {later : Store}
    (grown : later.Extends session.store) :
    (later.beside (session.store.spareInside session.scope)).Inset session.scope
      ⟨session.store.scopes.size⟩ := by
  let spare := session.store.spareInside session.scope
  have fits : spare.index ≤ later.scopes.size := grown.size
  have empty : (later.beside spare).scope ⟨spare.index⟩ = spare.scope := Store.scope_spare fits
  have here : session.scope.beside spare = session.scope := ScopeRef.beside_of_lt rooted.known
  have chain : (later.beside spare).chain session.scope = session.store.chain session.scope := by
    have moved := Store.chain_beside fits session.scope
    have same : later.chain session.scope = session.store.chain session.scope :=
      congrArg (session.scope :: ·) (grown.ancestors session.scope rooted.known)
    rwa [here, same, ScopeRef.map_beside_of_lt (rooted.chain_known rooted.known)] at moved
  exact ⟨(congrArg Scope.ancestors empty).trans chain.symm, congrArg Scope.bindings empty⟩

variable {value : Expr} (scopeless : value.everywhere (Expr.isScopeless session.binds) = true)

include scopeless

/-- Only the expression is run in the new scope. -/
theorem follows_newChild :
    let child := session.store.newChild session.scope
    (Layout.scopeless child.1 session.binds).Follows child.1
      (Machine.ofExpr value child.1 child.2) := by
  intro child
  have grown : child.2.Extends session.store := session.store.extends_newChild session.scope
  have known : child.1.index < child.2.scopes.size := session.store.newChild_known session.scope
  have runs : (Layout.scopeless child.1 session.binds).Runs child.2 child.1 (.expr value) :=
    ⟨known, known, fun _ => ⟨⟨value, rfl⟩, scopeless⟩⟩
  have values : session.store.AllIn .whole
      ((Layout.scopeless child.1 session.binds).OfValue child.2) := by
    refine rooted.values.imp fun value ofValue => ?_
    induction value with
    | function made captured =>
      refine ⟨known, grown.known ofValue, ?_⟩
      rintro rfl
      exact absurd ofValue (Nat.lt_irrefl _)
    | method receiver member ih => exact ih ofValue
    | _ => trivial
  have installed : child.2.Installed := (rooted.newChild rooted.known).installed
  exact
    { holds := ⟨⟨runs, trivial⟩, ⟨trivial, by simp [Machine.ofExpr], values.newChild trivial⟩⟩
      installed := ⟨trivial, by simp [Machine.ofExpr], installed⟩
      contained := ⟨trivial, trivial, rfl⟩ }

variable {State : Type} (host : Host State) (state : State)

/-- The expression is evaluated in the new scope as it is beside it. -/
theorem inStep_newChild
    (limit : Nat) :
    let child := session.store.newChild session.scope
    let spare := session.store.spareInside session.scope
    let plain := (Machine.ofExpr value session.scope session.store).run host limit state
    let inner := (Machine.ofExpr value child.1 child.2).run host limit state
    Machine.InStep session.scope child.1 (plain.1.beside spare) inner.1 ∧ inner.2 = plain.2 := by
  intro child spare plain inner
  let start := Machine.ofExpr value session.scope session.store
  have installed : start.Installed := ⟨trivial, by simp [start, Machine.ofExpr], rooted.installed⟩
  have fits : spare.index ≤ start.store.scopes.size := Nat.le_refl _
  have here : (Enlargement.beside spare).scope session.scope = session.scope :=
    ScopeRef.beside_of_lt rooted.known
  have begins : start.beside spare = Machine.ofExpr value session.scope child.2 := by
    simp only [start, Machine.ofExpr, Machine.enlarge, here, child, rooted.newChild_eq_beside]
    rfl
  have inStep : Machine.InStep session.scope child.1 (start.beside spare)
      (Machine.ofExpr value child.1 child.2) := by
    rw [begins]
    exact .here (Machine.ofExpr value session.scope child.2) rfl rfl
  have keeps : ∀ limit, (start.run host limit state).1.store.Keeps session.store :=
    fun limit => Machine.run_keeps installed host limit state
  have beside : ∀ limit, (start.beside spare).run host limit state =
      ((start.run host limit state).1.beside spare, (start.run host limit state).2) :=
    fun limit => installed.run_enlarge fits host limit state
  have runs := inStep.run host (rooted.follows_newChild scopeless) state (fun limit => ?_)
    (fun limit name bound => ?_) limit
  · rwa [beside] at runs
  · rw [beside]
    exact rooted.inset_beside (keeps limit).scopes
  · have fitsLater := Nat.le_trans fits (keeps limit).scopes.size
    have moved := (Enlargement.beside spare).lookup?_enlarge fitsLater session.scope name
    rw [here] at moved
    rw [beside]
    exact (congrArg Option.isSome moved).trans
      (Option.isSome_map.trans ((keeps limit).isSome_lookup? rooted.known bound))

end Session.Rooted

/-! ## Calls on the spot -/

namespace Session

variable {State : Type}

/-- Evaluating the tree of `fn:: value` does the same as evaluating `value`, if nothing is declared
and no function is made in `value` itself and every name that it assigns to is bound.  However long
the one is evaluated, the other has done the same some steps later, and so the one ends if and only
if the other does: with the same value, but that the scopes made behind the one of the call have
moved up, or with the same fault or status.  The scope of the call stays empty, and beside it
everything is the same.

Every session that operations lead to is rooted (`Rooted.leads`), and it remains so with any other
scope of its store as the one to evaluate in. -/
theorem run_calledOnTheSpot
    {session : Session}
    (rooted : session.Rooted)
    {value : Expr}
    (scopeless : value.everywhere (Expr.isScopeless session.binds) = true)
    (host : Host State)
    (state : State)
    (position : Position)
    (exported : Bool) :
    let called : Expr :=
      .call position (.function position none exported [] (Rules.returnBody value)) []
    let evaluated (expr : Expr) (limit : Nat) : Machine × State :=
      (Machine.ofExpr expr session.scope session.store).run host limit state
    (∀ limit, ∃ more,
      Machine.SameBeside (session.store.spareInside session.scope) (evaluated value limit)
        (evaluated called (limit + more))) ∧
    ((∃ limit, (evaluated called limit).1.outcome?.isSome) ↔
      ∃ limit, (evaluated value limit).1.outcome?.isSome) := by
  intro called evaluated
  let child := session.store.newChild session.scope
  let inner := Machine.ofExpr value child.1 child.2
  have contained : inner.Contained False child.1 := ⟨trivial, trivial, rfl⟩
  have begins : (Machine.ofExpr called session.scope session.store).run host 7 state =
      (inner.under [.returnValue, .sequence [], .call session.scope], state) :=
    rfl
  have abreast : ∀ limit, ∃ more,
      Machine.SameBeside (session.store.spareInside session.scope) (evaluated value limit)
        (evaluated called (limit + more)) := by
    intro limit
    obtain ⟨inStep, sameState⟩ := rooted.inStep_newChild scopeless host state limit
    obtain ⟨more, state_eq, store_eq, outcome_eq⟩ :=
      Machine.exists_run_under_call host contained session.scope limit state
    have installed : (Machine.ofExpr value session.scope session.store).Installed :=
      ⟨trivial, by simp [Machine.ofExpr], rooted.installed⟩
    have fits := (Machine.run_keeps installed host limit state).scopes.size
    have goesOn : evaluated called (limit + (more + 7)) =
        (inner.under [.returnValue, .sequence [], .call session.scope]).run host (limit + more)
          state := by
      rw [show limit + (more + 7) = 7 + (limit + more) by omega]
      exact (Machine.run_add host 7 (limit + more) _ state).trans
        (congrArg (fun now => now.1.run host (limit + more) now.2) begins)
    refine ⟨more + 7, Machine.sameBeside_of_store_eq fits ?_ ?_ ?_⟩
    · rw [goesOn]
      exact state_eq.trans sameState
    · rw [goesOn]
      exact outcome_eq.trans (inStep.outcome?.trans (Machine.outcome?_enlarge _))
    · rw [goesOn]
      exact store_eq.trans inStep.store
  refine ⟨abreast, fun ⟨limit, ended⟩ => ?_, fun ⟨limit, ended⟩ => ?_⟩
  · obtain ⟨more, same⟩ := abreast limit
    have stopped : evaluated called (limit + more) = evaluated called limit :=
      Machine.run_of_le host ended (Nat.le_add_right limit more)
    refine ⟨limit, ?_⟩
    rw [← stopped, same.outcome, Option.isSome_map] at ended
    exact ended
  · obtain ⟨more, same⟩ := abreast limit
    refine ⟨limit + more, ?_⟩
    rw [same.outcome, Option.isSome_map]
    exact ended

/-- A variable is assigned to what a function makes of it. -/
theorem run_calledOnTheSpot_of_assignment :
    let written : Operation :=
      .source "a = 'x'\nf = fn(b) \x7b return [b, '\x7ba\x7d'] \x7d"
    let session := (standard.perform still 60 written ()).2.1
    let place : Position := { line := 1, column := 0, offset := 0 }
    let value : Expr :=
      .assign place (.name place "a")
        (.call place (.name place "f") [.typeof place (.name place "a")])
    let called : Expr :=
      .call place (.function place none false [] (Rules.returnBody value)) []
    let evaluated (expr : Expr) (limit : Nat) : Machine × Unit :=
      (Machine.ofExpr expr session.scope session.store).run still limit ()
    ((session.store.lookup session.scope "a").string? = some "x" ∧
      ((evaluated value 40).1.store.display
        ((evaluated value 40).1.store.lookup session.scope "a") = "['string', 'x']")) ∧
    session.Rooted ∧
    value.everywhere (Expr.isScopeless session.binds) = true ∧
    ∃ more,
      Machine.SameBeside (session.store.spareInside session.scope) (evaluated value 40)
        (evaluated called (40 + more)) := by
  intro written session place value called evaluated
  have scopeless : value.everywhere (Expr.isScopeless session.binds) = true := by decide +kernel
  have possible : written.Possible standard := trivial
  refine ⟨by decide +kernel, ?_⟩
  -- From here on it does not matter which source this is, and it is not to be evaluated.
  clear_value written value
  have rooted : session.Rooted :=
    (fresh_standard.rooted.perform still possible 60 ()).1
  exact ⟨rooted, scopeless, (run_calledOnTheSpot rooted scopeless still () place false).1 40⟩

end Session

end TinyScript
