import TinyScript.Proofs.Machine.Natives
import TinyScript.Proofs.Machine.Stack

/-!
# Runs of pruned code

Statements behind a `return` of their own list are never run.  A machine that runs code without
them takes the same steps; while a `return` is executed, and until it has left the list that it
stands in, the frame of that list keeps statements in the one machine and none in the other.
-/

namespace TinyScript

/-- The recoding that leaves out the statements behind a `return` of their own list, everywhere. -/
abbrev Recoding.pruning : Recoding :=
  { move := id, cuts := true }

/-- The program without the statements behind a `return` of their own list: in the program itself,
in branches and loops, and in the bodies of functions. -/
def Program.pruned (program : Program) : Program :=
  Stmt.recodeBody .pruning program

/-- In a list of statements, those behind the first `return` are left out. -/
theorem Stmt.recodeBody_pruning_append
    {before : List Stmt}
    (returnless : ∀ statement ∈ before, statement.isReturn = false)
    {last : Stmt}
    (isReturn : last.isReturn = true)
    (behind : List Stmt) :
    Stmt.recodeBody .pruning (before ++ last :: behind) =
      (before ++ [last]).map (Stmt.recode .pruning) := by
  induction before with
  | nil => simp [Stmt.recodeBody, isReturn]
  | cons statement before ih =>
    rw [List.forall_mem_cons] at returnless
    simp [Stmt.recodeBody, returnless.1, ih returnless.2]

/-- A frame waits for the value of a `return`. -/
def Frame.returns : Frame → Bool
  | .returnValue => true
  | _ => false

/-- A `return` is executed, or on its way. -/
def Control.returns : Control → Bool
  | .execute statement => statement.isReturn
  | .unwind _ => true
  | _ => false

namespace Machine

/-- The frames of a stack, and those in pruned code.  Where a `return` goes up the stack next, the
first frame may be that of the list that it stands in. -/
inductive StackPruned : (returns : Bool) → List Frame → List Frame → Prop
  | nil {returns} : StackPruned returns [] []
  | frame {returns frame stack pruned} : StackPruned frame.returns stack pruned →
      StackPruned returns (frame :: stack) (frame.recode .pruning :: pruned)
  | dead {rest stack pruned} : StackPruned false stack pruned →
      StackPruned true (.sequence rest :: stack) (.sequence [] :: pruned)

/-- A machine is the other one in pruned code. -/
structure Prunes (m pruned : Machine) : Prop where
  control : m.control.recode .pruning = pruned.control
  scope : m.scope = pruned.scope
  stack : StackPruned m.control.returns m.stack pruned.stack
  store : m.store.recode .pruning = pruned.store

/-! ## Stacks -/

namespace StackPruned

variable {stack pruned : List Frame}

/-- A stack that is pruned outside of a return is pruned for one as well. -/
theorem weaken
    (isPruned : StackPruned false stack pruned)
    (returns : Bool) :
    StackPruned returns stack pruned := by
  cases isPruned with
  | nil => exact .nil
  | frame below => exact .frame below

/-- Frames that are pruned one by one may lie on a stack that is pruned. -/
theorem append
    (isPruned : StackPruned false stack pruned)
    (frames : List Frame) :
    StackPruned false (frames ++ stack) (frames.map (Frame.recode .pruning) ++ pruned) := by
  induction frames with
  | nil => exact isPruned
  | cons frame frames ih => exact .frame (ih.weaken frame.returns)

end StackPruned

variable {n : Machine} {stack pruned : List Frame}

/-- A machine and its pruned one stay so on stacks that are pruned. -/
theorem prunes_under
    (n : Machine)
    (rests : StackPruned false stack pruned) :
    (n.under stack).Prunes ((n.recode .pruning).under pruned) where
  control := rfl
  scope := rfl
  stack := (rests.append n.stack).weaken _
  store := rfl

/-- A step above some frames is the same in pruned code if no `return` can have led there. -/
theorem prunes_step_under
    (going : n.outcome? = none)
    (noBody : ∀ body, n.control ≠ .run body)
    (rests : StackPruned false stack pruned) :
    (n.under stack).step.Prunes ((n.recode .pruning).under pruned).step := by
  have goingPruned : (n.recode .pruning).outcome? = none := by
    rw [outcome?_recode, going]
    rfl
  rw [step_under stack going, step_under pruned goingPruned, step_recode _ n (.inr noBody)]
  exact prunes_under n.step rests

/-! ## Steps -/

section Steps

variable {scope : ScopeRef} {store : Store}

/-- Of a body, both run the next statement, or the pruned one leaves what comes behind a return. -/
theorem prunes_step_run
    (body : List Stmt)
    (rests : StackPruned false stack pruned) :
    ({ control := .run body, scope := scope, stack := stack, store := store } : Machine).step.Prunes
      ({ control := .run (Stmt.recodeBody .pruning body)
         scope := scope
         stack := pruned
         store := store.recode .pruning } : Machine).step := by
  cases body with
  | nil => exact ⟨rfl, rfl, rests, rfl⟩
  | cons statement rest =>
    refine ⟨rfl, rfl, ?_, rfl⟩
    simp only [step, runBody, Stmt.recodeBody, Control.returns, Bool.true_and]
    cases isReturn : statement.isReturn with
    | true => exact .dead rests
    | false => exact .frame rests

/-- To begin with a statement is the same in the pruned program. -/
theorem prunes_step_execute
    (statement : Stmt)
    (rests : StackPruned statement.isReturn stack pruned) :
    ({ control := .execute statement, scope := scope, stack := stack, store := store } :
        Machine).step.Prunes
      ({ control := .execute (statement.recode .pruning)
         scope := scope
         stack := pruned
         store := store.recode .pruning } : Machine).step := by
  have other (isOther : statement.isReturn = false) :=
    prunes_step_under
      (n := { control := .execute statement, scope := scope, stack := [], store := store })
      rfl nofun (isOther ▸ rests)
  cases statement with
  | returnValue position value => exact ⟨rfl, rfl, .frame rests, rfl⟩
  | returnNothing position => exact ⟨rfl, rfl, rests, rfl⟩
  | _ => exact other rfl

/-- To go on with a value is the same in the pruned program. -/
theorem prunes_step_give
    (value : Value)
    (frame : Frame)
    (below : StackPruned frame.returns stack pruned) :
    ({ control := .give value, scope := scope, stack := frame :: stack, store := store } :
        Machine).step.Prunes
      ({ control := .give (value.recode .pruning)
         scope := scope
         stack := frame.recode .pruning :: pruned
         store := store.recode .pruning } : Machine).step := by
  have other (waits : frame.returns = false) :=
    prunes_step_under
      (n := { control := .give value, scope := scope, stack := [frame], store := store })
      rfl nofun (waits ▸ below)
  cases frame with
  | returnValue => exact ⟨rfl, rfl, below, rfl⟩
  | _ => exact other rfl

/-- A return leaves the same frame in the pruned program. -/
theorem prunes_step_unwind
    (value : Value)
    (frame : Frame)
    (below : StackPruned frame.returns stack pruned) :
    ({ control := .unwind value, scope := scope, stack := frame :: stack, store := store } :
        Machine).step.Prunes
      ({ control := .unwind (value.recode .pruning)
         scope := scope
         stack := frame.recode .pruning :: pruned
         store := store.recode .pruning } : Machine).step := by
  have other (waits : frame.returns = false) :=
    prunes_step_under
      (n := { control := .unwind value, scope := scope, stack := [frame], store := store })
      rfl nofun (waits ▸ below)
  cases frame with
  | returnValue => exact ⟨rfl, rfl, below, rfl⟩
  | _ => exact other rfl

end Steps

namespace Prunes

variable {m pruned : Machine}

/-- Both machines have ended, in the same way, or neither has. -/
theorem outcome?_eq
    (prunes : m.Prunes pruned) :
    pruned.outcome? = m.outcome?.map (Outcome.recode .pruning) := by
  obtain ⟨control, scope, stack, store⟩ := m
  obtain ⟨prunedControl, prunedScope, prunedStack, prunedStore⟩ := pruned
  obtain ⟨rfl, rfl, rests, rfl⟩ := prunes
  generalize Control.returns _ = returns at rests
  cases rests <;> cases control <;> rfl

/-- One step of a run is one step of the pruned run. -/
theorem step
    (prunes : m.Prunes pruned)
    (going : m.outcome? = none) :
    m.step.Prunes pruned.step := by
  obtain ⟨control, scope, stack, store⟩ := m
  obtain ⟨prunedControl, prunedScope, prunedStack, prunedStore⟩ := pruned
  obtain ⟨rfl, rfl, rests, rfl⟩ := prunes
  cases control with
  | evaluate expr =>
    exact prunes_step_under (n := { control := .evaluate expr, scope, stack := [], store })
      rfl nofun rests
  | execute statement => exact prunes_step_execute statement rests
  | run body => exact prunes_step_run body rests
  | give value =>
    cases rests with
    | nil => cases going
    | frame below => exact prunes_step_give value _ below
  | unwind value =>
    cases rests with
    | nil => cases going
    | frame below => exact prunes_step_unwind value _ below
    | dead below => exact ⟨rfl, rfl, below.weaken true, rfl⟩
  | apply callee arguments position =>
    exact prunes_step_under
      (n := { control := .apply callee arguments position, scope, stack := [], store })
      rfl nofun rests
  | bind call parameters =>
    exact prunes_step_under
      (n := { control := .bind call parameters, scope, stack := [], store })
      rfl nofun rests
  | await request position => exact ⟨rfl, rfl, rests, rfl⟩
  | failed fault => cases going
  | exited status => cases going

/-- An answer leads on alike in the pruned run. -/
theorem answer
    (prunes : m.Prunes pruned)
    (reply : Except String Value) :
    (m.answer reply).Prunes (pruned.answer (reply.map (Value.recode .pruning))) := by
  obtain ⟨control, scope, stack, store⟩ := m
  obtain ⟨prunedControl, prunedScope, prunedStack, prunedStore⟩ := pruned
  obtain ⟨rfl, rfl, rests, rfl⟩ := prunes
  cases control with
  | await request position => cases reply <;> exact ⟨rfl, rfl, rests, rfl⟩
  | _ => exact ⟨rfl, rfl, rests, rfl⟩

/-- The pruned run asks the host the same. -/
theorem request?_eq
    (prunes : m.Prunes pruned) :
    pruned.request? = m.request?.map (Request.recode .pruning) := by
  unfold request?
  rw [← prunes.control]
  cases m.control <;> rfl

variable {State : Type} (host : Host State)

/-- An advance of a run is one of the pruned run, and leaves the host in the same state. -/
theorem advance
    (prunes : m.Prunes pruned)
    (installed : m.Installed)
    (going : m.outcome? = none)
    (state : State) :
    (m.advance host state).1.Prunes (pruned.advance host state).1 ∧
      (pruned.advance host state).2 = (m.advance host state).2 := by
  unfold Machine.advance
  rw [prunes.request?_eq]
  cases asks : m.request? with
  | none => exact ⟨prunes.step going, rfl⟩
  | some request =>
    obtain ⟨sameRequest, answer, next, _, sameAnswer, reply⟩ :=
      installed.exists_reply asks host state
    simp only [Option.map_some, Request.recode_of_disguise _ sameRequest, reply]
    have answered := prunes.answer (.ok answer)
    simp only [Except.map, Value.recode_of_disguise _ sameAnswer] at answered
    exact ⟨answered, True.intro⟩

/-- A run in pruned code is as long as the other one, with the same answers of the host. -/
theorem run
    (prunes : m.Prunes pruned)
    (installed : m.Installed)
    (limit : Nat)
    (state : State) :
    (m.run host limit state).1.Prunes (pruned.run host limit state).1 ∧
      (pruned.run host limit state).2 = (m.run host limit state).2 := by
  induction limit generalizing m pruned state with
  | zero => exact ⟨prunes, rfl⟩
  | succ limit ih =>
    simp only [Machine.run, prunes.outcome?_eq, Option.isSome_map]
    cases ends : m.outcome? with
    | some outcome => exact ⟨prunes, rfl⟩
    | none =>
      obtain ⟨advances, sameState⟩ := prunes.advance host installed ends state
      simp only [Option.isSome_none, Bool.false_eq_true, if_false, sameState]
      exact ih advances (installed.advance host state) _

end Prunes
end Machine
end TinyScript
