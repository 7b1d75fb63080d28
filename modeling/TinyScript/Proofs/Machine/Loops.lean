import TinyScript.Proofs.Machine.Sequence

/-!
# The two loops

A `for` loop does what its first part and a `while` loop do one after the other in a scope of
their own, where the update is the last statement of the body (`forLoop_abreast_whileLoop`).
Both runs do the same work above frames that differ, and they come from one piece of work to
the next one in a few steps that neither change the store nor ask anything.
-/

namespace TinyScript

/-- The body of the `while` loop that stands for a `for` loop: the update comes last. -/
def Loop.unrolled (loop : Loop) (position : Position) : List Stmt :=
  loop.body ++ [.expr position loop.update]

namespace Machine

variable {State : Type}

/-! ## Moments that are equally far -/

/-- What a machine has come to is the same, but for the value that it gives. -/
inductive EndsAs : Control → Control → Prop
  | given (value other : Value) : EndsAs (.give value) (.give other)
  | same (control : Control) : EndsAs control control

/-- At two moments of two runs the same has been done, and if one of the runs is over, then so is
the other. -/
structure Abreast (first second : Machine × State) : Prop where
  store : second.1.store = first.1.store
  state : second.2 = first.2
  ends : second.1.outcome?.isSome = first.1.outcome?.isSome
  control : first.1.outcome?.isSome → EndsAs first.1.control second.1.control

/-! ## The frames below the common work -/

/-- The frames of a `for` loop, and those of the `while` loop that stands for it, in each of the
four parts of the loop. -/
inductive LoopFrames (loop : Loop) (position : Position) : List Frame → List Frame → Prop
  | start (whilePosition : Position) :
      LoopFrames loop position [.forStart loop]
        [.sequence [.whileLoop whilePosition loop.test (loop.unrolled position)]]
  | test (last other : Value) :
      LoopFrames loop position [.forTest loop last]
        [.whileTest loop.test (loop.unrolled position) other, .sequence []]
  | body (rest : List Stmt) :
      LoopFrames loop position [.sequence rest, .forBody loop]
        [.sequence (rest ++ [.expr position loop.update]),
          .whileBody loop.test (loop.unrolled position), .sequence []]
  | update (last : Value) :
      LoopFrames loop position [.forUpdate loop last]
        [.sequence [], .whileBody loop.test (loop.unrolled position), .sequence []]

/-- Two loops are equally far: they do the same work, each above its own frames, or have come to
the same end. -/
inductive LoopsAbreast (loop : Loop) (position : Position) : Machine → Machine → Prop
  | work {own other : List Frame} (frames : LoopFrames loop position own other) (m : Machine) :
      LoopsAbreast loop position (m.under own) (m.under other)
  | stopped {m other : Machine}
      (ended : m.outcome?.isSome)
      (otherEnded : other.outcome?.isSome)
      (store : other.store = m.store)
      (control : EndsAs m.control other.control) :
      LoopsAbreast loop position m other

variable {loop : Loop} {position : Position} {own other : List Frame}

/-- Neither run is over as long as the frames have not been left. -/
theorem LoopFrames.outcome?_under
    (frames : LoopFrames loop position own other)
    (m : Machine) :
    (m.under other).outcome? = (m.under own).outcome? := by
  obtain ⟨control, scope, stack, store⟩ := m
  cases frames <;> cases control <;> cases stack <;> rfl

/-- Two loops that are equally far have done the same, and are over together. -/
theorem LoopsAbreast.abreast
    {m other : Machine}
    (together : LoopsAbreast loop position m other)
    (state : State) :
    Abreast (m, state) (other, state) := by
  cases together with
  | work frames m =>
    exact ⟨rfl, rfl, by rw [frames.outcome?_under], fun _ => .same _⟩
  | stopped ended otherEnded store control =>
    exact ⟨store, rfl, otherEnded.trans ended.symm, fun _ => control⟩

/-! ## From one part of a loop to the next one -/

/-- Both loops go on with statements of the body, behind which only one of them has the update. -/
theorem comesTo_of_run
    (loop : Loop)
    (position : Position)
    (rest : List Stmt)
    (scope : ScopeRef)
    (store : Store) :
    ∃ m later,
      ({ control := .run rest, scope := scope, stack := [.forBody loop],
         store := store } : Machine).ComesTo m ∧
      ({ control := .run (rest ++ [.expr position loop.update]), scope := scope,
         stack := [.whileBody loop.test (loop.unrolled position), .sequence []],
         store := store } : Machine).ComesTo later ∧
      LoopsAbreast loop position m later := by
  cases rest with
  | nil =>
    let update : Machine :=
      { control := .evaluate loop.update, scope := scope, stack := [], store := store }
    exact ⟨_, _, ⟨2, fun _ _ => rfl⟩, ⟨2, fun _ _ => rfl⟩, .work (.update .void) update⟩
  | cons statement rest =>
    exact ⟨_, _, ⟨1, fun _ _ => rfl⟩, ⟨1, fun _ _ => rfl⟩,
      .work (.body rest) (ofStatement statement scope store)⟩

/-- When the common work has given a value, both loops come to their next part or are over. -/
theorem LoopFrames.comesTo_of_give
    (frames : LoopFrames loop position own other)
    (value : Value)
    (scope : ScopeRef)
    (store : Store) :
    let m : Machine := { control := .give value, scope := scope, stack := [], store := store }
    ∃ next later, (m.under own).step.ComesTo next ∧ (m.under other).step.ComesTo later ∧
      LoopsAbreast loop position next later := by
  intro m
  let test : Machine :=
    { control := .evaluate loop.test, scope := scope, stack := [], store := store }
  cases frames with
  | start whilePosition =>
    exact ⟨_, _, .refl _, ⟨2, fun _ _ => rfl⟩, .work (.test .void .void) test⟩
  | test last other =>
    by_cases holds : store.isTruthy value
    · simp only [m, under, List.nil_append, step, resume, holds, if_true]
      exact comesTo_of_run loop position loop.body scope store
    · simp only [m, under, List.nil_append, step, resume, holds]
      exact ⟨_, _, .refl _, ⟨1, fun _ _ => rfl⟩, .stopped rfl rfl rfl (.given last other)⟩
  | body rest =>
    cases rest with
    | nil =>
      let update : Machine :=
        { control := .evaluate loop.update, scope := scope, stack := [], store := store }
      exact ⟨_, _, ⟨1, fun _ _ => rfl⟩, ⟨2, fun _ _ => rfl⟩, .work (.update value) update⟩
    | cons statement rest => exact comesTo_of_run loop position (statement :: rest) scope store
  | update last =>
    exact ⟨_, _, .refl _, ⟨1, fun _ _ => rfl⟩, .work (.test last value) test⟩

/-- A `return` leaves both loops. -/
theorem LoopFrames.comesTo_of_unwind
    (frames : LoopFrames loop position own other)
    (value : Value)
    (scope : ScopeRef)
    (store : Store) :
    let m : Machine := { control := .unwind value, scope := scope, stack := [], store := store }
    ∃ next later, (m.under own).step.ComesTo next ∧ (m.under other).step.ComesTo later ∧
      LoopsAbreast loop position next later := by
  intro m
  let left (scope : ScopeRef) : Machine :=
    { control := .unwind value, scope := scope, stack := [], store := store }
  have stopped : LoopsAbreast loop position (left loop.outer) (left scope) :=
    .stopped rfl rfl rfl (.same (.unwind value))
  cases frames with
  | start whilePosition => exact ⟨_, _, .refl _, .refl _, stopped⟩
  | test last other => exact ⟨_, _, .refl _, ⟨1, fun _ _ => rfl⟩, stopped⟩
  | body rest => exact ⟨_, _, ⟨1, fun _ _ => rfl⟩, ⟨2, fun _ _ => rfl⟩, stopped⟩
  | update last => exact ⟨_, _, .refl _, ⟨2, fun _ _ => rfl⟩, stopped⟩

/-- When the common work is over without a fault, both loops go on. -/
theorem LoopFrames.comesTo_of_completed
    (frames : LoopFrames loop position own other)
    {m : Machine}
    {value : Value}
    (completed : m.outcome? = some (.completed value)) :
    ((m.under own).outcome? = none ∧ (m.under own).request? = none) ∧
      ((m.under other).outcome? = none ∧ (m.under other).request? = none) ∧
      ∃ next later, (m.under own).step.ComesTo next ∧ (m.under other).step.ComesTo later ∧
        LoopsAbreast loop position next later := by
  obtain ⟨control, scope, stack, store⟩ := m
  cases control with
  | give given =>
    cases stack with
    | nil =>
      refine ⟨?_, ?_, frames.comesTo_of_give given scope store⟩ <;>
        cases frames <;> exact ⟨rfl, rfl⟩
    | cons frame stack => cases completed
  | unwind given =>
    cases stack with
    | nil =>
      refine ⟨?_, ?_, frames.comesTo_of_unwind given scope store⟩ <;>
        cases frames <;> exact ⟨rfl, rfl⟩
    | cons frame stack => cases completed
  | _ => cases completed

/-! ## Runs -/

variable (host : Host State)

/-- A machine that goes on takes a step towards whatever that step comes to. -/
theorem ComesTo.exists_run_succ
    {m later : Machine}
    (comes : m.step.ComesTo later)
    (going : m.outcome? = none ∧ m.request? = none)
    (state : State) :
    ∃ more, m.run host (more + 1) state = (later, state) := by
  obtain ⟨count, runs⟩ := comes
  exact ⟨count, (run_succ_of_step host going.1 going.2 count state).trans (runs host state)⟩

/-- Two loops that are equally far are so again after at least one more step of each. -/
theorem LoopsAbreast.exists_run
    {m other : Machine}
    (together : LoopsAbreast loop position m other)
    (state : State) :
    ∃ first second next later reached,
      m.run host (first + 1) state = (next, reached) ∧
        other.run host (second + 1) state = (later, reached) ∧
          LoopsAbreast loop position next later := by
  cases together with
  | stopped ended otherEnded store control =>
    exact ⟨0, 0, m, other, state, run_of_isSome ended host 1 state,
      run_of_isSome otherEnded host 1 state, .stopped ended otherEnded store control⟩
  | @work own other frames w =>
    cases ends : w.outcome? with
    | none =>
      have advances : ∀ base,
          (w.under base).run host 1 state =
            ((w.advance host state).1.under base, (w.advance host state).2) := by
        intro base
        simp [run, outcome?_under base ends, advance_under base host ends]
      exact ⟨0, 0, _, _, _, advances own, advances other, .work frames _⟩
    | some outcome =>
      by_cases completed : ∃ value, outcome = .completed value
      · obtain ⟨value, rfl⟩ := completed
        obtain ⟨going, otherGoing, next, later, comes, otherComes, abreast⟩ :=
          frames.comesTo_of_completed ends
        obtain ⟨first, runs⟩ := comes.exists_run_succ host going state
        obtain ⟨second, otherRuns⟩ := otherComes.exists_run_succ host otherGoing state
        exact ⟨first, second, next, later, state, runs, otherRuns, abreast⟩
      · have noValue : ∀ value, outcome ≠ .completed value := by simpa using completed
        have endsUnder : ∀ base, (w.under base).outcome?.isSome := fun base => by
          rw [outcome?_under_of_ne ends noValue base]
          rfl
        exact ⟨0, 0, _, _, state, run_of_isSome (endsUnder own) host 1 state,
          run_of_isSome (endsUnder other) host 1 state,
          .stopped (endsUnder own) (endsUnder other) rfl (.same _)⟩

/-- Two loops that are equally far at some moments are so at later ones, however late. -/
theorem LoopsAbreast.exists_run_of_le
    {m other : Machine}
    (together : LoopsAbreast loop position m other)
    (limit : Nat)
    (state : State) :
    ∃ first second next later reached, limit ≤ first ∧ limit ≤ second ∧
      m.run host first state = (next, reached) ∧
        other.run host second state = (later, reached) ∧
          LoopsAbreast loop position next later := by
  induction limit generalizing m other state with
  | zero =>
    exact ⟨0, 0, m, other, state, Nat.le_refl 0, Nat.le_refl 0, rfl, rfl, together⟩
  | succ limit ih =>
    obtain ⟨first, second, next, later, reached, runs, otherRuns, abreast⟩ :=
      together.exists_run host state
    obtain ⟨more, otherMore, last, otherLast, final, bound, otherBound, ends, otherEnds,
      abreastLater⟩ := ih abreast reached
    refine ⟨first + 1 + more, second + 1 + otherMore, last, otherLast, final, by omega, by omega,
      ?_, ?_, abreastLater⟩
    · rw [run_add, runs]
      exact ends
    · rw [run_add, otherRuns]
      exact otherEnds

/-- Executing `for start; test; update` with a body does the same as executing, in a scope made
inside the one at hand, first `start` and then a `while` loop with the same test, whose body ends
with `update`.  However long the one runs, there are later moments of both with the same store and
the same state of what surrounds them, so the one ends if and only if the other does, and then
in the same way: with the same fault, the same status, or the same value of a `return`.  When they
are over, both are back in the scope that they began in. -/
theorem forLoop_abreast_whileLoop
    (host : Host State)
    (scope : ScopeRef)
    (store : Store)
    (state : State)
    (start test update : Expr)
    (body : List Stmt)
    (forPosition startPosition whilePosition updatePosition : Position) :
    let child := store.newChild scope
    let looped := ofStatement (.forLoop forPosition start test update body) scope store
    let unrolled :=
      ofProgram
        [.expr startPosition start,
          .whileLoop whilePosition test (body ++ [.expr updatePosition update])]
        child.1 child.2
    (∀ limit, ∃ first second, limit ≤ first ∧ limit ≤ second ∧
      Abreast (looped.run host first state) (unrolled.run host second state)) ∧
    (∀ limit value,
      (looped.run host limit state).1.outcome? = some (.completed value) →
        (looped.run host limit state).1.scope = scope) ∧
    ∀ limit value,
      (unrolled.run host limit state).1.outcome? = some (.completed value) →
        (unrolled.run host limit state).1.scope = child.1 := by
  intro child looped unrolled
  let loop : Loop := { outer := scope, test := test, update := update, body := body }
  let begin : Machine :=
    { control := .evaluate start, scope := child.1, stack := [], store := child.2 }
  have abreast : LoopsAbreast loop updatePosition (begin.under [.forStart loop])
      (begin.under [.sequence [.whileLoop whilePosition test (loop.unrolled updatePosition)]]) :=
    .work (.start whilePosition) begin
  refine ⟨fun limit => ?_, fun limit value completed => ?_, fun limit value completed => ?_⟩
  · obtain ⟨first, second, next, later, reached, bound, otherBound, runs, otherRuns, together⟩ :=
      abreast.exists_run_of_le host limit state
    refine ⟨1 + first, 2 + second, by omega, by omega, ?_⟩
    have begun : looped.run host 1 state = (begin.under [.forStart loop], state) := rfl
    have otherBegun :
        unrolled.run host 2 state =
          (begin.under [.sequence [.whileLoop whilePosition test (loop.unrolled updatePosition)]],
            state) :=
      rfl
    rw [run_add, begun, run_add, otherBegun, runs, otherRuns]
    exact together.abreast reached
  · have contained : looped.Contained True scope := ⟨.inr trivial, trivial, rfl⟩
    exact scope_of_completed (contained.run host limit state).home completed
  · have contained : unrolled.Contained True child.1 :=
      contained_ofProgram_outside _ child.1 child.2
    exact scope_of_completed (contained.run host limit state).home completed

end Machine
end TinyScript
