import TinyScript.Proofs.Machine.Recoded
import TinyScript.Proofs.Machine.Relabel

/-!
# Changing positions is recoding

What is the same for all recoded machines is the same in particular for those at other places.
-/

namespace TinyScript

variable (change : Position → Position)

/-- Moving the positions in a function is a way of rewriting its code. -/
theorem Function.relabel_eq_recode
    (function : Function) :
    function.relabel change = function.recode (.moving change) := by
  simp [Function.relabel, Function.recode, Parameter.relabel_eq_recode, Stmt.relabel_eq_recode]

theorem Value.relabel_eq_recode :
    Value.relabel change = Value.recode (.moving change) := by
  funext value
  induction value with
  | function function captured =>
    simp only [Value.relabel, Value.recode, Function.relabel_eq_recode]
  | method receiver method ih => simp only [Value.relabel, Value.recode, ih]
  | _ => rfl

theorem Store.relabel_eq_recode
    (store : Store) :
    store.relabel change = store.recode (.moving change) := by
  have bindings : Binding.relabel change = Binding.recode (.moving change) := by
    funext binding
    rw [Binding.relabel, Binding.recode, Value.relabel_eq_recode]
  have scopes : Scope.relabel change = Scope.recode (.moving change) := by
    funext scope
    rw [Scope.relabel, Scope.recode, bindings]
  rw [Store.relabel, Store.recode, scopes, Value.relabel_eq_recode]

theorem Request.relabel_eq_recode :
    Request.relabel change = Request.recode (.moving change) := by
  funext request
  cases request <;> simp [Request.relabel, Request.recode, Value.relabel_eq_recode]

theorem Activation.relabel_eq_recode
    (call : Activation) :
    call.relabel change = call.recode (.moving change) := by
  simp [Activation.relabel, Activation.recode, Stmt.relabel_eq_recode]

theorem Loop.relabel_eq_recode
    (loop : Loop) :
    loop.relabel change = loop.recode (.moving change) := by
  simp [Loop.relabel, Loop.recode, Expr.relabel_eq_recode, Stmt.relabel_eq_recode]

theorem Frame.relabel_eq_recode :
    Frame.relabel change = Frame.recode (.moving change) := by
  funext frame
  cases frame <;>
    simp [Frame.relabel, Frame.recode, Expr.relabel_eq_recode, Field.relabel_eq_recode,
      Parameter.relabel_eq_recode, Stmt.relabel_eq_recode, Value.relabel_eq_recode,
      Activation.relabel_eq_recode, Loop.relabel_eq_recode]

theorem Control.relabel_eq_recode
    (control : Control) :
    control.relabel change = control.recode (.moving change) := by
  cases control <;>
    simp [Control.relabel, Control.recode, Expr.relabel_eq_recode, Parameter.relabel_eq_recode,
      Stmt.relabel_eq_recode, Value.relabel_eq_recode, Request.relabel_eq_recode,
      Activation.relabel_eq_recode, Fault.relabel, Fault.recode]

/-- Moving the positions in a machine is a way of rewriting its code, so what is known of rewritten
machines goes over. -/
theorem Machine.relabel_eq_recode
    (m : Machine) :
    m.relabel change = m.recode (.moving change) := by
  rw [Machine.relabel, Machine.recode, Control.relabel_eq_recode, Frame.relabel_eq_recode,
    Store.relabel_eq_recode]

theorem Outcome.relabel_eq_recode :
    Outcome.relabel change = Outcome.recode (.moving change) := by
  funext outcome
  cases outcome <;>
    simp [Outcome.relabel, Outcome.recode, Value.relabel_eq_recode, Fault.relabel, Fault.recode]

/-- A run with other positions ends when the other one ends, with the same value but for the
positions in it. -/
theorem Machine.outcome?_relabel
    (m : Machine) :
    (m.relabel change).outcome? = m.outcome?.map (Outcome.relabel change) := by
  rw [relabel_eq_recode, Outcome.relabel_eq_recode, outcome?_recode]

end TinyScript
