import TinyScript.Proofs.Machine.Sequence
import TinyScript.Proofs.Machine.Writes
import TinyScript.Proofs.Session.Reached
import TinyScript.Proofs.Store.Inlay

/-!
# References that lead somewhere

A reference to an array or object is made together with it, and arrays and objects are never
lost.  A session therefore refers to none that is not there, whatever programs it runs
(`Session.isClosed_runProgram`), and neither does any machine on the way
(`Machine.IsClosed.run`).
-/

namespace TinyScript

namespace Value

variable {store later : Store} {value : Value}

/-- What is in a store is in every store that has at least as many arrays and objects. -/
theorem IsIn.grow
    (isIn : value.IsIn store)
    (grown : store.arrays.size ≤ later.arrays.size ∧ store.objects.size ≤ later.objects.size) :
    value.IsIn later := by
  induction value with
  | array ref => exact Nat.lt_of_lt_of_le isIn grown.1
  | object ref => exact Nat.lt_of_lt_of_le isIn grown.2
  | method receiver method ih => exact ih isIn
  | _ => trivial

/-- To be in a store is a steady property of values. -/
theorem steady_isIn
    (store : Store) :
    Steady .whole (IsIn store) where
  null := trivial
  undefined := trivial
  void := trivial
  number _ := trivial
  bool _ := trivial
  string _ := trivial
  array _ _ := trivial
  object _ _ := trivial
  function _ _ _ := trivial
  method _ _ := Iff.rfl

end Value

namespace Machine

variable {m : Machine}

/-- Nothing in a machine refers to an array or object that is not there. -/
def IsClosed (m : Machine) : Prop :=
  m.All (Value.IsIn m.store)

/-- A program is run without references out of the store when there are none in the store. -/
theorem isClosed_ofProgram
    {store : Store}
    (closed : store.IsClosed)
    (program : Program)
    (scope : ScopeRef) :
    (ofProgram program scope store).IsClosed :=
  ⟨trivial, by simp [ofProgram], closed⟩

/-- An expression is evaluated without references out of the store when there are none in the
store. -/
theorem isClosed_ofExpr
    {store : Store}
    (closed : store.IsClosed)
    (expr : Expr)
    (scope : ScopeRef) :
    (ofExpr expr scope store).IsClosed :=
  ⟨trivial, by simp [ofExpr], closed⟩

/-- A step makes no reference to anything that is not in its store. -/
theorem IsClosed.step
    (closed : m.IsClosed) :
    m.step.IsClosed := by
  have before : m.AllIn .whole (Value.IsIn m.step.store) :=
    (all_iff_allIn.1 closed).imp fun _ isIn => isIn.grow (Writes.step m).size_le
  refine all_iff_allIn.2 (before.step_of_adds (Value.steady_isIn _) (fun _ _ => trivial)
    (fun _ _ => trivial) (fun value made => ?_) ⟨id, id⟩)
  obtain ⟨expr, function, -, -, rfl⟩ := exists_function_of_made? made
  trivial

/-- An answer that is plain data brings no reference into a machine. -/
theorem IsClosed.answer
    (closed : m.IsClosed)
    {value : Value}
    (plain : ∀ region p, Value.Steady region p → p value) :
    (m.answer (.ok value)).IsClosed := by
  have answered := (all_iff_allIn.1 closed).answer (plain _ _ (Value.steady_isIn m.store))
  rw [IsClosed, store_answer]
  exact all_iff_allIn.2 answered

section Runs

variable {State : Type} {host : Host State} {state : State}

/-- Neither a step nor a plain answer leads out of the store. -/
theorem IsClosed.advance
    (closed : m.IsClosed)
    (goesOn : m.advance host state = (m.step, state) ∨
      ∃ answer next,
        (∀ region p, Value.Steady region p → p answer) ∧
          m.advance host state = (m.answer (.ok answer), next)) :
    (m.advance host state).1.IsClosed := by
  rcases goesOn with steps | ⟨answer, next, plain, answers⟩
  · rw [steps]
    exact closed.step
  · rw [answers]
    exact closed.answer plain

/-- No run without functions of the surrounding program leaves a reference without what it is to. -/
theorem IsClosed.run
    (closed : m.IsClosed)
    (installed : m.Installed)
    (host : Host State)
    (limit : Nat)
    (state : State) :
    (m.run host limit state).1.IsClosed := by
  have both :=
    run_preserves (p := fun m => m.Installed ∧ m.IsClosed) host
      (fun m state ⟨installed, closed⟩ =>
        ⟨installed.advance host state, closed.advance (installed.advance_eq host state)⟩)
      ⟨installed, closed⟩ limit state
  exact both.2

/-- All that a host without input or functions answers is plain. -/
theorem advance_still
    (m : Machine) :
    m.advance Session.still () = (m.step, ()) ∨
      ∃ answer next,
        (∀ region p, Value.Steady region p → p answer) ∧
          m.advance Session.still () = (m.answer (.ok answer), next) := by
  unfold Machine.advance
  cases m.request? with
  | none => exact .inl rfl
  | some request =>
    cases request with
    | readLine => exact .inr ⟨.string _, (), fun _ _ steady => steady.string _, rfl⟩
    | clock => exact .inr ⟨.number _, (), fun _ _ steady => steady.number _, rfl⟩
    | random => exact .inr ⟨.number _, (), fun _ _ steady => steady.number _, rfl⟩
    | host name arguments scope => exact .inr ⟨.null, (), fun _ _ steady => steady.null, rfl⟩

/-- What a machine comes to whatever surrounds it, it also comes to in silence. -/
theorem IsClosed.comesTo
    {later : Machine}
    (closed : m.IsClosed)
    (comes : m.ComesTo later) :
    later.IsClosed := by
  obtain ⟨count, runs⟩ := comes
  have ends := run_preserves (p := IsClosed) Session.still
    (fun m _ closed => closed.advance m.advance_still) closed count ()
  rwa [runs] at ends

end Runs

end Machine

namespace Session

/-- A session without the library has nothing to refer to. -/
theorem isClosed_bare :
    bare.store.IsClosed :=
  all_bare

/-- The objects of the library are in the store of a session that has it. -/
theorem isClosed_standard :
    standard.store.IsClosed := by
  obtain ⟨-, -, objects⟩ := Library.keeps_install bare.store bare.scope
  have count : standard.store.objects.size = bare.store.objects.size + 2 :=
    congrArg Array.size objects
  exact Library.all_install (Value.steady_isIn _) (fun _ _ => trivial) all_bare
    (fun ref _ known => Nat.lt_of_lt_of_eq known count.symm) bare.scope

/-- A program makes no reference to an array or object that is not there. -/
theorem isClosed_runProgram
    {State : Type}
    {session : Session}
    (closed : session.store.IsClosed)
    (installed : session.store.Installed)
    (host : Host State)
    (limit : Nat)
    (program : Program)
    (scope : ScopeRef)
    (state : State) :
    (session.runProgram host limit program scope state).2.1.store.IsClosed :=
  ((Machine.isClosed_ofProgram closed program scope).run
    (Machine.installed_ofProgram installed program scope) host limit state).store

end Session
end TinyScript
