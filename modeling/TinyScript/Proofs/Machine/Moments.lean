import TinyScript.Proofs.Machine.Returns

/-!
# Moments of a run

At every moment of a run some operations are in progress: begun, and not over.  An operation
begins when its node is evaluated, before its operands are.  It is over when it has been
performed; for the call of a function that is at the end of the function's body.
-/

namespace TinyScript

/-- An operation in progress. -/
structure Pending where
  /-- The node of the operation. -/
  expr : Expr
  /-- The function that runs, if the operation is a call of one and its arguments are known. -/
  function : Option Function

/-- An operation in progress whose operands are being evaluated, or which is being performed. -/
abbrev Pending.of (expr : Expr) : Pending :=
  { expr := expr, function := none }

/-- An expression is an operation that waits for the values of operands. -/
def Expr.isOperation : Expr → Bool
  | .binary _ _ _ _ | .unary _ _ _ | .assign _ _ _ | .call _ _ _ | .member _ _ _
  | .index _ _ _ => true
  | _ => false

/-- A frame is the last one of an operation. -/
def Frame.closes : Frame → Bool
  | .binary _ _ _ | .unary _ _ | .assignName _ | .assignValue _ _ _ | .member _ _ | .key _ _
  | .call _ => true
  | _ => false

namespace Machine

/-- The operations in progress after the next step, the latest first. -/
def trailAfter (m : Machine) (trail : List Pending) : List Pending :=
  match m.control, m.stack with
  | .evaluate expr, _ => if expr.isOperation then .of expr :: trail else trail
  | .give _, frame :: _ | .unwind _, frame :: _ => if frame.closes then trail.tail else trail
  | .apply (.function function _) _ _, _ =>
    match trail with
    | [] => []
    | pending :: outer => { pending with function := some function } :: outer
  | .apply _ _ _, _ =>
    match m.step.control with
    | .give _ => trail.tail
    | _ => trail
  | .await _ _, _ => trail.tail
  | _, _ => trail

/-- A function that runs after a step did so before, or is the one that is applied. -/
theorem function_of_mem_trailAfter
    {m : Machine}
    {trail : List Pending}
    {pending : Pending}
    (mem : pending ∈ m.trailAfter trail)
    {function : Function}
    (runs : pending.function = some function) :
    pending ∈ trail ∨
      ∃ captured arguments position,
        m.control = .apply (.function function captured) arguments position := by
  have of_closes : ∀ {closes : Bool}, pending ∈ (if closes then trail.tail else trail) →
      pending ∈ trail := by
    intro closes mem
    cases closes with
    | false => exact mem
    | true => exact List.mem_of_mem_tail mem
  obtain ⟨control, scope, stack, store⟩ := m
  cases control with
  | evaluate expr =>
    simp only [trailAfter] at mem
    split at mem
    · rcases List.mem_cons.1 mem with rfl | before
      · cases runs
      · exact .inl before
    · exact .inl mem
  | apply callee arguments position =>
    cases callee with
    | function made captured =>
      cases trail with
      | nil => cases mem
      | cons latest outer =>
        rcases List.mem_cons.1 mem with rfl | before
        · cases runs
          exact .inr ⟨captured, arguments, position, rfl⟩
        · exact .inl (List.mem_cons_of_mem latest before)
    | _ =>
      refine .inl ?_
      simp only [trailAfter] at mem
      split at mem
      · exact List.mem_of_mem_tail mem
      · exact mem
  | give value =>
    cases stack with
    | nil => exact .inl mem
    | cons frame rest => exact .inl (of_closes mem)
  | unwind value =>
    cases stack with
    | nil => exact .inl mem
    | cons frame rest => exact .inl (of_closes mem)
  | await request position => exact .inl (List.mem_of_mem_tail mem)
  | _ => exact .inl mem

variable {State : Type}

/-- The moments that a run goes through, each with the operations that are in progress, the latest
first. -/
inductive Moment (host : Host State) (start : Machine) (origin : State) :
    List Pending → Machine → State → Prop
  | start : Moment host start origin [] start origin
  | next {trail m state} : Moment host start origin trail m state → m.outcome? = none →
      Moment host start origin (m.trailAfter trail) (m.advance host state).1
        (m.advance host state).2

variable {host : Host State} {m start : Machine} {state origin : State} {trail : List Pending}

/-- One more step of a run is one more advance, as long as the run has not ended. -/
theorem run_succ
    (limit : Nat)
    (going : (start.run host limit origin).1.outcome? = none) :
    start.run host (limit + 1) origin =
      (start.run host limit origin).1.advance host (start.run host limit origin).2 := by
  rw [run_add]
  simp [run, going]

/-- A run stops at a moment. -/
theorem exists_moment_run
    (host : Host State)
    (start : Machine)
    (origin : State)
    (limit : Nat) :
    ∃ trail, Moment host start origin trail (start.run host limit origin).1
      (start.run host limit origin).2 := by
  induction limit with
  | zero => exact ⟨[], .start⟩
  | succ limit ih =>
    obtain ⟨trail, moment⟩ := ih
    cases going : (start.run host limit origin).1.outcome? with
    | some outcome =>
      refine ⟨trail, ?_⟩
      rw [run_add, run_of_isSome (by simp [going])]
      exact moment
    | none =>
      refine ⟨(start.run host limit origin).1.trailAfter trail, ?_⟩
      rw [run_succ limit going]
      exact moment.next going

namespace Moment

/-- A run can be stopped at each of its moments. -/
theorem exists_run_eq
    (moment : Moment host start origin trail m state) :
    ∃ limit, start.run host limit origin = (m, state) := by
  induction moment with
  | start => exact ⟨0, rfl⟩
  | @next trail m state moment going ih =>
    obtain ⟨limit, stops⟩ := ih
    refine ⟨limit + 1, ?_⟩
    rw [run_succ limit (by rw [stops]; exact going), stops]

/-- At every moment of a run the machine comes back to where the run began. -/
theorem contained
    {scope : ScopeRef}
    (begins : start.Contained True scope)
    (moment : Moment host start origin trail m state) :
    m.Contained True scope := by
  obtain ⟨limit, stops⟩ := moment.exists_run_eq
  have contained := begins.run host limit origin
  rwa [stops] at contained

/-- A machine that has met a fault did so in one step. -/
theorem exists_advance_eq
    {fault : Fault}
    (sound : start.control ≠ .failed fault)
    (moment : Moment host start origin trail m state)
    (failed : m.control = .failed fault) :
    ∃ trail before now, Moment host start origin trail before now ∧
      before.outcome? = none ∧ (before.advance host now).1.control = .failed fault := by
  cases moment with
  | start => exact absurd failed sound
  | next moment going => exact ⟨_, _, _, moment, going, failed⟩

end Moment
end Machine
end TinyScript
