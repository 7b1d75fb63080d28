import TinyScript.Proofs.Machine.Sequence
import TinyScript.Proofs.Store.Alike
import TinyScript.Proofs.Syntax.Everywhere

/-!
# Work without effects

An expression that does not assign, declare, call or make a function only reads the store,
and at most adds arrays and objects to it.  Every step of its evaluation leaves less to be
done, so that it comes to an end (`IsPassive.exists_comesTo`).
-/

namespace TinyScript

/-! ## Expressions and frames -/

/-- An expression does not itself assign, declare, change a variable by one, call or make a
function. -/
def Expr.isPassive : Expr → Bool
  | .step _ _ _ _ | .assign _ _ _ | .declare _ _ _ _ | .call _ _ _ | .function _ _ _ _ _ => false
  | _ => true

/-- What a frame goes on with has no effect. -/
def Frame.isPassive : Frame → Bool
  | .items _ rest => Expr.allEverywhere Expr.isPassive rest
  | .fields _ _ rest => Field.allEverywhere Expr.isPassive rest
  | .right _ _ expr | .logical _ expr | .index _ expr => expr.everywhere Expr.isPassive
  | .ternary consequent alternate =>
    consequent.everywhere Expr.isPassive && alternate.everywhere Expr.isPassive
  | .binary _ _ _ | .unary _ _ | .member _ _ | .key _ _ | .typeof => true
  | _ => false

/-- What a machine does has no effect. -/
def Control.isPassive : Control → Bool
  | .evaluate expr => expr.everywhere Expr.isPassive
  | .give _ | .failed _ => true
  | _ => false

mutual

/-- A bound for the steps that an expression without effects takes. -/
def Expr.steps : Expr → Nat
  | .array _ items => Expr.allSteps items + 1
  | .object _ fields => Field.allSteps fields + 1
  | .binary _ _ left right => left.steps + right.steps + 3
  | .logical _ _ left right => left.steps + right.steps + 2
  | .unary _ _ operand => operand.steps + 2
  | .member _ subject _ => subject.steps + 2
  | .index _ subject key => subject.steps + key.steps + 3
  | .ternary _ test consequent alternate =>
    test.steps + consequent.steps + alternate.steps + 2
  | .typeof _ operand => operand.steps + 2
  | _ => 1

def Expr.allSteps : List Expr → Nat
  | [] => 0
  | expr :: exprs => expr.steps + Expr.allSteps exprs + 1

def Field.allSteps : List Field → Nat
  | [] => 0
  | .mk _ value :: fields => value.steps + Field.allSteps fields + 1

end

/-- A bound for the steps that a frame without effects leads to. -/
def Frame.steps : Frame → Nat
  | .items _ rest => Expr.allSteps rest + 1
  | .fields _ _ rest => Field.allSteps rest + 1
  | .right _ _ expr | .index _ expr => expr.steps + 2
  | .logical _ expr => expr.steps + 1
  | .ternary consequent alternate => consequent.steps + alternate.steps + 1
  | _ => 1

/-- A bound for the steps that the frames of a stack lead to. -/
def Frame.allSteps (stack : List Frame) : Nat :=
  (stack.map Frame.steps).sum

namespace Machine

/-- A bound for the steps that a machine without effects still takes. -/
def stepsLeft (m : Machine) : Nat :=
  match m.control with
  | .evaluate expr => expr.steps + Frame.allSteps m.stack
  | _ => Frame.allSteps m.stack

/-- Neither what a machine does nor what follows has an effect. -/
structure IsPassive (m : Machine) : Prop where
  control : m.control.isPassive = true
  stack : ∀ frame ∈ m.stack, frame.isPassive = true

/-- A machine without effects, with fewer steps left than a bound, is in the scope of another one
and has its store, to which arrays and objects may have been added. -/
structure GoesOn (m : Machine) (bound : Nat) (next : Machine) : Prop where
  isPassive : next.IsPassive
  scope : next.scope = m.scope
  store : next.store.Includes m.store
  output : next.store.output = m.store.output
  stepsLeft : next.stepsLeft < bound

/-! ## Steps -/

section Steps

variable {m : Machine} {bound : Nat} (rests : ∀ frame ∈ m.stack, frame.isPassive = true)

include rests

/-- A value that is at hand takes less work than the expression that gave it. -/
theorem goesOn_give
    (value : Value)
    (less : Frame.allSteps m.stack < bound) :
    m.GoesOn bound (m.give value) where
  isPassive := ⟨rfl, rests⟩
  scope := rfl
  store := .refl _
  output := rfl
  stepsLeft := less

/-- A computation that gives a value or fails takes less work than its expression. -/
theorem goesOn_giveOrFail
    (position : Position)
    (result : Except Fault.Cause Value)
    (less : Frame.allSteps m.stack < bound) :
    m.GoesOn bound (m.giveOrFail position result) := by
  cases result with
  | ok value => exact goesOn_give rests value less
  | error cause => exact ⟨⟨rfl, rests⟩, rfl, .refl _, rfl, less⟩

/-- An expression with nothing but passive parts that is at hand is passive, with no more work than
is left. -/
theorem goesOn_evaluate
    {expr : Expr}
    (passive : expr.everywhere Expr.isPassive = true)
    (less : expr.steps + Frame.allSteps m.stack < bound) :
    m.GoesOn bound { m with control := .evaluate expr } where
  isPassive := ⟨passive, rests⟩
  scope := rfl
  store := .refl _
  output := rfl
  stepsLeft := less

/-- An operand that is entered is passive, and its work and that of the frame are less than those of
the operation. -/
theorem goesOn_enter
    {expr : Expr}
    (passive : expr.everywhere Expr.isPassive = true)
    {frame : Frame}
    (passiveFrame : frame.isPassive = true)
    (less : expr.steps + (frame.steps + Frame.allSteps m.stack) < bound) :
    m.GoesOn bound (m.enter expr frame) where
  isPassive := ⟨passive, List.forall_mem_cons.2 ⟨passiveFrame, rests⟩⟩
  scope := rfl
  store := .refl _
  output := rfl
  stepsLeft := by simpa [enter, Machine.stepsLeft, Frame.allSteps] using less

/-- Each item of an array takes its share of the work of the array. -/
theorem goesOn_evaluateItems
    (done : List Value)
    {items : List Expr}
    (passive : Expr.allEverywhere Expr.isPassive items = true) :
    m.GoesOn (Expr.allSteps items + 1 + Frame.allSteps m.stack) (m.evaluateItems done items) := by
  cases items with
  | nil =>
    refine ⟨⟨rfl, rests⟩, rfl, m.store.includes_newArray _, rfl, ?_⟩
    exact Nat.lt_add_of_pos_left Nat.one_pos
  | cons item items =>
    rw [Expr.allEverywhere, Bool.and_eq_true] at passive
    refine goesOn_enter rests passive.1 passive.2 ?_
    simp only [Expr.allSteps, Frame.steps]
    omega

/-- Each property of an object takes its share of the work of the object. -/
theorem goesOn_evaluateFields
    (done : Table Value)
    {fields : List Field}
    (passive : Field.allEverywhere Expr.isPassive fields = true) :
    m.GoesOn (Field.allSteps fields + 1 + Frame.allSteps m.stack)
      (m.evaluateFields done fields) := by
  match fields with
  | [] =>
    refine ⟨⟨rfl, rests⟩, rfl, m.store.includes_newObject _, rfl, ?_⟩
    exact Nat.lt_add_of_pos_left Nat.one_pos
  | .mk key value :: fields =>
    rw [Field.allEverywhere, Bool.and_eq_true] at passive
    refine goesOn_enter rests passive.1 passive.2 ?_
    simp only [Field.allSteps, Frame.steps]
    omega

/-- To begin with a passive expression takes a share of its work, makes no scope and changes nothing
that was there before. -/
theorem evaluate_goesOn
    {expr : Expr}
    (passive : expr.everywhere Expr.isPassive = true) :
    m.GoesOn (expr.steps + Frame.allSteps m.stack) (m.evaluate expr) := by
  have here := Node.passes_of_everywhere passive
  cases expr with
  | array position items =>
    rw [Expr.everywhere, Bool.and_eq_true] at passive
    exact goesOn_evaluateItems rests [] passive.2
  | object position fields =>
    rw [Expr.everywhere, Bool.and_eq_true] at passive
    exact goesOn_evaluateFields rests .empty passive.2
  | binary position op left right =>
    simp only [Expr.everywhere, Bool.and_eq_true] at passive
    refine goesOn_enter rests passive.1.2 passive.2 ?_
    simp only [Expr.steps, Frame.steps]
    omega
  | logical position op left right =>
    simp only [Expr.everywhere, Bool.and_eq_true] at passive
    refine goesOn_enter rests passive.1.2 passive.2 ?_
    simp only [Expr.steps, Frame.steps]
    omega
  | unary position op operand =>
    rw [Expr.everywhere, Bool.and_eq_true] at passive
    refine goesOn_enter rests passive.2 rfl ?_
    simp only [Expr.steps, Frame.steps]
    omega
  | member position subject key =>
    rw [Expr.everywhere, Bool.and_eq_true] at passive
    refine goesOn_enter rests passive.2 rfl ?_
    simp only [Expr.steps, Frame.steps]
    omega
  | index position subject key =>
    simp only [Expr.everywhere, Bool.and_eq_true] at passive
    refine goesOn_enter rests passive.1.2 passive.2 ?_
    simp only [Expr.steps, Frame.steps]
    omega
  | ternary position test consequent alternate =>
    simp only [Expr.everywhere, Bool.and_eq_true] at passive
    refine goesOn_enter rests passive.1.1.2 ?_ ?_
    · simp only [Frame.isPassive, passive, Bool.and_self]
    · simp only [Expr.steps, Frame.steps]
      omega
  | typeof position operand =>
    rw [Expr.everywhere, Bool.and_eq_true] at passive
    refine goesOn_enter rests passive.2 rfl ?_
    simp only [Expr.steps, Frame.steps]
    omega
  | step | assign | declare | call | function => cases here
  | _ => exact goesOn_give rests _ (by simp [Expr.steps])

/-- To go on with a value in a passive frame takes a share of its work, makes no scope and changes
nothing that was there before. -/
theorem resume_goesOn
    (value : Value)
    {frame : Frame}
    (passive : frame.isPassive = true) :
    m.GoesOn (frame.steps + Frame.allSteps m.stack) (m.resume value frame) := by
  cases frame with
  | items done rest => exact goesOn_evaluateItems rests _ passive
  | fields done key rest => exact goesOn_evaluateFields rests _ passive
  | right position op operand =>
    refine goesOn_enter rests passive rfl ?_
    simp only [Frame.steps]
    omega
  | binary position op left => exact goesOn_giveOrFail rests position _ (by simp [Frame.steps])
  | logical op operand =>
    simp only [resume, Frame.steps]
    split
    · exact goesOn_give rests value (by omega)
    · exact goesOn_evaluate rests passive (by omega)
  | unary position op => exact goesOn_giveOrFail rests position _ (by simp [Frame.steps])
  | member position key => exact goesOn_giveOrFail rests position _ (by simp [Frame.steps])
  | index position key =>
    refine goesOn_enter rests passive rfl ?_
    simp only [Frame.steps]
    omega
  | key position subject => exact goesOn_giveOrFail rests position _ (by simp [Frame.steps])
  | ternary consequent alternate =>
    rw [Frame.isPassive, Bool.and_eq_true] at passive
    simp only [resume, Frame.steps]
    split
    · exact goesOn_evaluate rests passive.1 (by omega)
    · exact goesOn_evaluate rests passive.2 (by omega)
  | typeof => exact goesOn_give rests _ (by simp [Frame.steps])
  | _ => cases passive

end Steps

variable {m : Machine}

/-- A step of a machine without effects leaves it without them, and leaves fewer steps. -/
theorem IsPassive.step
    (isPassive : m.IsPassive)
    (going : m.outcome? = none) :
    m.GoesOn m.stepsLeft m.step := by
  obtain ⟨control, scope, stack, store⟩ := m
  obtain ⟨passive, rests⟩ := isPassive
  cases control with
  | evaluate expr => exact evaluate_goesOn rests passive
  | give value =>
    cases stack with
    | nil => cases going
    | cons frame stack =>
      obtain ⟨first, others⟩ := List.forall_mem_cons.1 rests
      obtain ⟨ofNext, sameScope, grown, silent, fewer⟩ := resume_goesOn
        (m := { control := .give value, scope := scope, stack := stack, store := store })
        others value first
      exact ⟨ofNext, sameScope, grown, silent, fewer⟩
  | failed fault => cases stack <;> cases going
  | _ => cases passive

/-- A passive machine asks nothing of the host. -/
theorem IsPassive.request?_eq_none
    (isPassive : m.IsPassive) :
    m.request? = none := by
  obtain ⟨control, scope, stack, store⟩ := m
  cases control <;> first | rfl | cases isPassive.control

/-! ## Runs -/

/-- Without effects, a machine comes to an end, in its scope and with its store, to which arrays and
objects may have been added.  What lies deeper on the stack has no influence. -/
theorem IsPassive.exists_comesTo
    (isPassive : m.IsPassive) :
    ∃ later : Machine,
      later.outcome?.isSome ∧ later.IsPassive ∧ later.scope = m.scope ∧
        later.store.Includes m.store ∧ later.store.output = m.store.output ∧
        ∀ base, (m.under base).ComesTo (later.under base) := by
  -- The steps that are left carry the induction.
  induction left : m.stepsLeft using Nat.strong_induction_on generalizing m with
  | _ count ih =>
    cases going : m.outcome? with
    | some outcome =>
      exact ⟨m, by simp [going], isPassive, rfl, .refl _, rfl, fun base => .refl _⟩
    | none =>
      have goesOn := isPassive.step going
      obtain ⟨later, ended, ofLater, scope, grown, silent, comes⟩ :=
        ih m.step.stepsLeft (left ▸ goesOn.stepsLeft) goesOn.isPassive rfl
      refine ⟨later, ended, ofLater, scope.trans goesOn.scope, grown.trans goesOn.store,
        silent.trans goesOn.output, fun base => ?_⟩
      have first : (m.under base).ComesTo (m.under base).step :=
        comesTo_step (outcome?_under base going) isPassive.request?_eq_none
      rw [step_under base going] at first
      exact first.trans (comes base)

end Machine
end TinyScript
