import TinyScript.Proofs.Machine.Returns
import TinyScript.Proofs.Machine.Stack

/-!
# Statements one after the other

A program that ends without a fault and has no `return` outside its functions is
followed by further statements as if they were a program of their own, which begins
where it ended.
-/

namespace TinyScript
namespace Machine

variable {State : Type} (host : Host State)

/-- A machine that has not ended and asks nothing takes a step. -/
theorem run_succ_of_step
    {m : Machine}
    (going : m.outcome? = none)
    (silent : m.request? = none)
    (limit : Nat)
    (state : State) :
    m.run host (limit + 1) state = m.step.run host limit state := by
  simp [run, going, advance, silent]

/-- A run that has ended is the same with any higher bound. -/
theorem run_of_le
    {m : Machine}
    {count limit : Nat}
    {state : State}
    (ended : (m.run host count state).1.outcome?.isSome)
    (bound : count ≤ limit) :
    m.run host limit state = m.run host count state := by
  obtain ⟨more, rfl⟩ := Nat.exists_eq_add_of_le bound
  rw [run_add, run_of_isSome ended]

/-! ## Runs without questions -/

/-- A machine comes to another one after some number of steps, whatever surrounds it. -/
def ComesTo (m later : Machine) : Prop :=
  ∃ count, ∀ {State : Type} (host : Host State) (state : State),
    m.run host count state = (later, state)

/-- A machine comes to itself in no step. -/
theorem ComesTo.refl
    (m : Machine) :
    m.ComesTo m :=
  ⟨0, fun _ _ => rfl⟩

/-- A machine comes to whatever it comes to by way of another one. -/
theorem ComesTo.trans
    {m next later : Machine}
    (first : m.ComesTo next)
    (second : next.ComesTo later) :
    m.ComesTo later := by
  obtain ⟨count, runs⟩ := first
  obtain ⟨more, runsOn⟩ := second
  refine ⟨count + more, fun host state => ?_⟩
  rw [run_add, runs]
  exact runsOn host state

/-- A machine that has not ended and asks nothing comes to its next step. -/
theorem comesTo_step
    {m : Machine}
    (going : m.outcome? = none)
    (silent : m.request? = none) :
    m.ComesTo m.step :=
  ⟨1, fun host state => run_succ_of_step host going silent 0 state⟩

/-! ## Work above other frames -/

/-- Work above frames that ends in a fault, or asks to exit, ends the whole run so. -/
theorem outcome?_under_of_ne
    {m : Machine}
    {outcome : Outcome}
    (ends : m.outcome? = some outcome)
    (noValue : ∀ value, outcome ≠ .completed value)
    (base : List Frame) :
    (m.under base).outcome? = some outcome := by
  obtain ⟨control, scope, stack, store⟩ := m
  cases control <;> cases stack <;> cases ends <;> first | rfl | exact absurd rfl (noValue _)

/-- If a run above frames ends with a value, then so does the work above them, which the frames
are given. -/
theorem exists_run_under_of_completes
    {m : Machine}
    {origin : ScopeRef}
    (contained : m.Contained False origin)
    {base : List Frame}
    {limit : Nat}
    {state : State}
    {value : Value}
    (completes :
      ((m.under base).run host limit state).1.outcome? = some (.completed value)) :
    ∃ count ≤ limit, ∃ given store next, ∀ base,
      (m.under base).run host count state =
        ({ control := .give given, scope := origin, stack := base, store := store }, next) := by
  obtain ⟨count, bound, stops, same⟩ := exists_run_under (m := m) host limit state
  cases ends : (m.run host count state).1.outcome? with
  | none =>
    -- The work would not be over at the end of the whole run.
    have atLimit : count = limit := stops.resolve_right (by simp [ends])
    rw [← atLimit, same, outcome?_under base ends] at completes
    cases completes
  | some outcome =>
    by_cases completed : ∃ given, outcome = .completed given
    · obtain ⟨given, rfl⟩ := completed
      have worked := contained.run host count state
      obtain ⟨gives, inOrigin, atEnd⟩ := worked.of_completed ends
      refine ⟨count, bound, given, (m.run host count state).1.store,
        (m.run host count state).2, fun base => ?_⟩
      rw [same]
      refine Prod.ext ?_ rfl
      simp only [under, gives, inOrigin, atEnd, List.nil_append]
    · have noValue : ∀ given, outcome ≠ .completed given := by simpa using completed
      have endsAbove := outcome?_under_of_ne ends noValue base
      have ended : ((m.under base).run host count state).1.outcome?.isSome := by
        rw [same, endsAbove]
        rfl
      rw [run_of_le host ended bound, same, endsAbove] at completes
      exact absurd (Option.some.inj completes) (noValue value)

/-- The value of the body is what a call comes to, in the scope that it was made from.  Whatever
else its evaluation comes to, so does the call. -/
theorem exists_run_under_call
    {m : Machine}
    {origin : ScopeRef}
    (contained : m.Contained False origin)
    (caller : ScopeRef)
    (limit : Nat)
    (state : State) :
    let alone := m.run host limit state
    ∃ more,
      let called :=
        (m.under [.returnValue, .sequence [], .call caller]).run host (limit + more) state
      called.2 = alone.2 ∧ called.1.store = alone.1.store ∧
        called.1.outcome? = alone.1.outcome? := by
  intro alone
  let frames : List Frame := [.returnValue, .sequence [], .call caller]
  obtain ⟨count, bound, stops, same⟩ := exists_run_under (m := m) host limit state
  cases ends : (m.run host count state).1.outcome? with
  | none =>
    have atLimit : count = limit := stops.resolve_right (by simp [ends])
    subst atLimit
    refine ⟨0, ?_⟩
    simp only [Nat.add_zero, same]
    exact ⟨rfl, rfl, (outcome?_under frames ends).trans ends.symm⟩
  | some outcome =>
    have ended : (m.run host count state).1.outcome?.isSome := by rw [ends]; rfl
    have alone_eq : alone = m.run host count state := run_of_le host ended bound
    by_cases completed : ∃ given, outcome = .completed given
    · obtain ⟨given, rfl⟩ := completed
      obtain ⟨gives, _, atEnd⟩ := (contained.run host count state).of_completed ends
      have leaves : ∀ w : Machine, w.control = .give given → w.stack = [] → ∀ state,
          (w.under frames).run host 3 state =
            ({ control := .give given, scope := caller, stack := [], store := w.store },
              state) := by
        rintro ⟨control, scope, stack, store⟩ rfl rfl state
        rfl
      have reached := (run_add host count 3 (m.under frames) state).trans
        ((congrArg (fun now => now.1.run host 3 now.2) (same frames)).trans
          (leaves _ gives atEnd _))
      have stopped : ((m.under frames).run host (count + 3) state).1.outcome?.isSome := by
        rw [reached]
        rfl
      refine ⟨3, ?_⟩
      rw [run_of_le host stopped (Nat.add_le_add_right bound 3), reached, alone_eq, ends]
      exact ⟨rfl, rfl, rfl⟩
    · have noValue : ∀ given, outcome ≠ .completed given := by simpa using completed
      have endsAbove := outcome?_under_of_ne ends noValue frames
      have above : ((m.under frames).run host count state).1.outcome?.isSome := by
        rw [same, endsAbove]
        rfl
      refine ⟨0, ?_⟩
      rw [Nat.add_zero, run_of_le host above bound, same, alone_eq, ends]
      exact ⟨rfl, rfl, endsAbove⟩

/-! ## Programs -/

/-- The machine that evaluates an expression in a scope. -/
def ofExpr (expr : Expr) (scope : ScopeRef) (store : Store) : Machine :=
  { control := .evaluate expr, scope := scope, stack := [], store := store }

/-- The machine that executes one statement. -/
def ofStatement (statement : Stmt) (scope : ScopeRef) (store : Store) : Machine :=
  { control := .execute statement, scope := scope, stack := [], store := store }

/-- A program begins with its first statement, above the others. -/
theorem run_ofProgram_cons
    (first : Stmt)
    (rest : List Stmt)
    (scope : ScopeRef)
    (store : Store)
    (limit : Nat)
    (state : State) :
    (ofProgram (first :: rest) scope store).run host (limit + 1) state =
      ((ofStatement first scope store).under [.sequence rest]).run host limit state :=
  run_succ_of_step host rfl rfl limit state

/-- The statements behind one that is over are run in its scope. -/
theorem run_sequence_cons
    (given : Value)
    (scope : ScopeRef)
    (store : Store)
    (second : Stmt)
    (rest : List Stmt)
    (limit : Nat)
    (state : State) :
    ({ control := .give given, scope := scope, stack := [.sequence (second :: rest)],
       store := store } : Machine).run host (limit + 1) state =
      (ofProgram (second :: rest) scope store).run host limit state :=
  run_succ_of_step host rfl rfl limit state

/-- Behind the last statement nothing is left to do. -/
theorem run_sequence_nil
    (given : Value)
    (scope : ScopeRef)
    (store : Store)
    (limit : Nat)
    (state : State) :
    ({ control := .give given, scope := scope, stack := [.sequence []],
       store := store } : Machine).run host (limit + 1) state =
      ({ control := .give given, scope := scope, stack := [], store := store }, state) := by
  rw [run_succ_of_step host rfl rfl]
  exact run_of_isSome rfl host limit state

/-- A program without statements changes nothing. -/
theorem exists_run_ofProgram_nil
    (scope : ScopeRef)
    (store : Store)
    (limit : Nat)
    (state : State) :
    ∃ control, (ofProgram [] scope store).run host limit state =
      ({ control := control, scope := scope, stack := [], store := store }, state) := by
  cases limit with
  | zero => exact ⟨_, rfl⟩
  | succ limit =>
    have ended : (ofProgram [] scope store).step.outcome?.isSome := rfl
    rw [run_succ_of_step host rfl rfl, run_of_isSome ended]
    exact ⟨_, rfl⟩

/-- Statements behind a program that ends with a value are run where it ends. -/
theorem exists_run_ofProgram_append
    {program : Program}
    (returnless : Stmt.areReturnless program = true)
    {scope : ScopeRef}
    {store : Store}
    {limit : Nat}
    {state : State}
    {value : Value}
    (completes :
      ((ofProgram program scope store).run host limit state).1.outcome? =
        some (.completed value)) :
    ∃ count, ∀ others, others ≠ [] →
      (ofProgram (program ++ others) scope store).run host count state =
        (ofProgram others scope ((ofProgram program scope store).run host limit state).1.store,
          ((ofProgram program scope store).run host limit state).2) := by
  induction program generalizing store limit state with
  | nil =>
    refine ⟨0, fun others _ => ?_⟩
    obtain ⟨control, runs⟩ := exists_run_ofProgram_nil host scope store limit state
    rw [runs]
    rfl
  | cons first rest ih =>
    cases limit with
    | zero => cases completes
    | succ limit =>
      obtain ⟨ofFirst, ofRest⟩ :
          Stmt.areReturnless [first] = true ∧ Stmt.areReturnless rest = true := by
        simpa [Stmt.areReturnless] using returnless
      have contained : (ofStatement first scope store).Contained False scope :=
        ⟨.inl ofFirst, trivial, rfl⟩
      rw [run_ofProgram_cons] at completes ⊢
      obtain ⟨count, bound, given, reached, next, runs⟩ :=
        exists_run_under_of_completes host contained completes
      obtain ⟨more, rfl⟩ := Nat.exists_eq_add_of_le bound
      rw [run_add, runs] at completes ⊢
      have begins : ∀ second others limit,
          (ofProgram (first :: second :: others) scope store).run host (count + (limit + 1) + 1)
              state =
            (ofProgram (second :: others) scope reached).run host limit next := by
        intro second others limit
        rw [run_ofProgram_cons, run_add, runs, run_sequence_cons]
      cases more with
      | zero => cases completes
      | succ more =>
        cases rest with
        | nil =>
          refine ⟨count + (0 + 1) + 1, fun others nonempty => ?_⟩
          obtain ⟨second, others, rfl⟩ := List.exists_cons_of_ne_nil nonempty
          rw [List.singleton_append, begins, run_sequence_nil]
          rfl
        | cons second rest =>
          rw [run_sequence_cons] at completes ⊢
          obtain ⟨later, goesOn⟩ := ih ofRest completes
          refine ⟨count + (later + 1) + 1, fun others nonempty => ?_⟩
          rw [List.cons_append, List.cons_append, begins, ← List.cons_append]
          exact goesOn others nonempty

end Machine
end TinyScript
