import TinyScript.Proofs.Machine.Closed
import TinyScript.Proofs.Machine.Enlarging
import TinyScript.Proofs.Machine.Passive

/-!
# Evaluating an expression again

An expression without effects leaves a store that has nothing but further arrays and objects.
These are an inlay of the store that it was evaluated in, so that its evaluation takes
the same course again (`IsPassive.run_enlarge`): it comes to the same fault, or to a value of the
same type and with the same text (`evaluatesTo_of_isPassive`).
-/

namespace TinyScript
namespace Machine

/-! ## Runs without effects -/

section Runs

variable {larger : Enlargement} {m later : Machine} (fits : larger.Fits m.store)
  (isPassive : m.IsPassive)

include fits isPassive

/-- A run without effects asks nothing, so it is the same in an enlarged store whatever functions
the surrounding program has. -/
theorem IsPassive.run_enlarge
    {State : Type}
    (host : Host State)
    (limit : Nat)
    (state : State) :
    (m.enlarge larger).run host limit state =
      ((m.run host limit state).1.enlarge larger, (m.run host limit state).2) := by
  induction limit generalizing m with
  | zero => rfl
  | succ limit ih =>
    cases going : m.outcome? with
    | some outcome =>
      have ended : m.outcome?.isSome := by simp [going]
      have endedToo : (m.enlarge larger).outcome?.isSome := by simp [outcome?_enlarge, going]
      rw [run_of_isSome ended, run_of_isSome endedToo]
    | none =>
      have silent := isPassive.request?_eq_none
      have goesOn := isPassive.step going
      rw [run_succ_of_step host going silent,
        run_succ_of_step host (by simp [outcome?_enlarge, going])
          (by simp [request?_enlarge, silent]),
        step_enlarge fits]
      have grown : m.step.store.NoSmaller m.store :=
        ⟨Nat.le_of_eq (by rw [goesOn.store.scopes]), goesOn.store.arrays, goesOn.store.objects⟩
      exact ih (larger.fits_of_noSmaller fits grown) goesOn.isPassive

/-- In an enlarged store, a run without effects comes to the same machine. -/
theorem IsPassive.comesTo_enlarge
    (comes : m.ComesTo later) :
    (m.enlarge larger).ComesTo (later.enlarge larger) := by
  obtain ⟨count, runs⟩ := comes
  refine ⟨count, fun host state => ?_⟩
  rw [isPassive.run_enlarge fits host count state, runs]

end Runs

/-- A machine comes to one end only. -/
theorem ComesTo.unique
    {m first second : Machine}
    (comes : m.ComesTo first)
    (ended : first.outcome?.isSome)
    (comesToo : m.ComesTo second)
    (endedToo : second.outcome?.isSome) :
    first = second := by
  obtain ⟨count, runs⟩ := comes
  obtain ⟨more, runsToo⟩ := comesToo
  have stops : m.run Session.still count () = (first, ()) := runs Session.still ()
  have stopsToo : m.run Session.still more () = (second, ()) := runsToo Session.still ()
  have same : m.run Session.still count () = m.run Session.still more () := by
    rcases Nat.le_total count more with le | le
    · exact (run_of_le Session.still (by rw [stops]; exact ended) le).symm
    · exact run_of_le Session.still (by rw [stopsToo]; exact endedToo) le
  exact congrArg Prod.fst (stops.symm.trans (same.trans stopsToo))

/-! ## Results -/

/-- The evaluation of an expression ends with a store and with a value, which the frames below are
given, or with a fault.  It does so whatever surrounds the program. -/
inductive EvaluatesTo (m : Machine) (expr : Expr) : Except Fault Value → Store → Prop
  | value {value store} :
      ({ m with control := .evaluate expr } : Machine).ComesTo
        { m with control := .give value, store := store } →
      EvaluatesTo m expr (.ok value) store
  | fault {fault stack store} :
      ({ m with control := .evaluate expr } : Machine).ComesTo
        { m with control := .failed fault, stack := stack, store := store } →
      EvaluatesTo m expr (.error fault) store

/-- Two results, each in a store of its own, are the same fault, or values of the same type with
the same text. -/
inductive SameResult (store later : Store) : Except Fault Value → Except Fault Value → Prop
  | value {value again} :
      again.typeTag = value.typeTag → later.display again = store.display value →
      SameResult store later (.ok value) (.ok again)
  | fault {fault} : SameResult store later (.error fault) (.error fault)

/-- A machine has ended with a result. -/
inductive HasResult (m : Machine) : Except Fault Value → Prop
  | value {value} : m.control = .give value → m.stack = [] → HasResult m (.ok value)
  | fault {fault} : m.control = .failed fault → HasResult m (.error fault)

/-- A passive evaluation ends in a value or in a fault, and not otherwise. -/
theorem IsPassive.exists_hasResult
    {m : Machine}
    (isPassive : m.IsPassive)
    (ended : m.outcome?.isSome) :
    ∃ result, m.HasResult result := by
  obtain ⟨control, scope, stack, store⟩ := m
  cases control with
  | give value =>
    cases stack with
    | nil => exact ⟨.ok value, .value rfl rfl⟩
    | cons frame stack => cases ended
  | failed fault => exact ⟨.error fault, .fault rfl⟩
  | evaluate expr => cases ended
  | _ => cases isPassive.control

section Results

variable {m ending : Machine} {expr : Expr} {result again : Except Fault Value}
  (has : ending.HasResult result)

include has

/-- An expression evaluates to what its evaluation comes to on any stack. -/
theorem HasResult.evaluatesTo
    (scope : ending.scope = m.scope)
    (comes : ((ofExpr expr m.scope m.store).under m.stack).ComesTo (ending.under m.stack)) :
    m.EvaluatesTo expr result ending.store := by
  obtain ⟨control, endingScope, stack, store⟩ := ending
  obtain rfl : endingScope = m.scope := scope
  cases has with
  | value gives atEnd =>
    obtain rfl := gives
    obtain rfl := atEnd
    exact .value comes
  | fault fails =>
    obtain rfl := fails
    exact .fault comes

/-- In an enlarged store, a machine has the same result. -/
theorem HasResult.sameResult_enlarge
    {larger : Enlargement}
    (fits : larger.Fits ending.store)
    (hasAgain : (ending.enlarge larger).HasResult again) :
    SameResult ending.store (ending.enlarge larger).store result again := by
  cases has with
  | value gives _ =>
    have givesToo : (ending.enlarge larger).control = .give _ :=
      congrArg (Control.relocate larger.toRelocation) gives
    cases hasAgain with
    | value givesAgain _ =>
      obtain rfl := Control.give.inj (givesAgain.symm.trans givesToo)
      exact .value (Value.typeTag_disguise _ _) ((larger.disguised fits).display _)
    | fault failsAgain => cases failsAgain.symm.trans givesToo
  | fault fails =>
    have failsToo : (ending.enlarge larger).control = .failed _ :=
      congrArg (Control.relocate larger.toRelocation) fails
    cases hasAgain with
    | value givesAgain _ => cases givesAgain.symm.trans failsToo
    | fault failsAgain =>
      obtain rfl := Control.failed.inj (failsAgain.symm.trans failsToo)
      exact .fault

end Results

/-- Wherever it stands, and whatever surrounds the program, the evaluation of an expression without
effects ends.  It leaves the scopes and the output as they are, and the arrays and objects that were
there.  Where every reference leads somewhere, as it does in a session, it goes on to do so, and the
expression comes to the same fault when it is evaluated again, or to a value of the same type and
with the same text. -/
theorem evaluatesTo_of_isPassive
    {expr : Expr}
    (passive : expr.everywhere Expr.isPassive = true)
    (m : Machine) :
    ∃ result later,
      m.EvaluatesTo expr result later ∧ later.Includes m.store ∧ later.output = m.store.output ∧
        (m.store.IsClosed →
          later.IsClosed ∧
            ∃ again latest,
              ({ m with store := later } : Machine).EvaluatesTo expr again latest ∧
                latest.Includes later ∧ latest.output = later.output ∧
                SameResult later latest result again) := by
  let start := ofExpr expr m.scope m.store
  have isPassive : start.IsPassive := ⟨passive, fun _ mem => absurd mem List.not_mem_nil⟩
  obtain ⟨first, ended, ofFirst, scope, grown, silent, comes⟩ := isPassive.exists_comesTo
  obtain ⟨result, has⟩ := ofFirst.exists_hasResult ended
  have reaches : start.ComesTo first := by simpa only [under_nil] using comes []
  refine ⟨result, first.store, has.evaluatesTo scope (comes m.stack), grown, silent,
    fun closed => ⟨((isClosed_ofExpr closed expr m.scope).comesTo reaches).store, ?_⟩⟩
  -- The second evaluation is the first one around what that has made.
  let made : Enlargement := .around (.between m.store first.store)
  have fits : made.Fits start.store := Store.fits_between
  have fitsLater : made.Fits first.store :=
    made.fits_of_noSmaller fits
      ⟨Nat.le_of_eq (by rw [grown.scopes]), grown.arrays, grown.objects⟩
  have begins : start.enlarge made = ofExpr expr m.scope first.store :=
    congrArg (ofExpr expr m.scope) (closed.around_between grown silent)
  have isPassiveToo : (start.enlarge made).IsPassive := begins ▸ ⟨passive, isPassive.stack⟩
  obtain ⟨second, endedToo, ofSecond, scopeToo, grownToo, silentToo, comesToo⟩ :=
    isPassiveToo.exists_comesTo
  have reachesToo : (start.enlarge made).ComesTo second := by
    simpa only [under_nil] using comesToo []
  obtain rfl : second = first.enlarge made :=
    reachesToo.unique endedToo (isPassive.comesTo_enlarge fits reaches)
      (by simpa [outcome?_enlarge] using ended)
  obtain ⟨again, hasAgain⟩ := ofSecond.exists_hasResult endedToo
  rw [begins] at grownToo silentToo comesToo
  exact ⟨again, (first.enlarge made).store, hasAgain.evaluatesTo scopeToo (comesToo m.stack),
    grownToo, silentToo, has.sameResult_enlarge fitsLater hasAgain⟩

/-- The items of a new array are shown, and an array in one of them. -/
theorem evaluatesTo_of_isPassive_of_interpolation :
    let binding : Binding := { value := .array ⟨0⟩, constant := false }
    let store : Store :=
      { scopes := #[{ ancestors := [], bindings := { entries := [("a", binding)] } }]
        arrays := #[#[.bool true]]
        objects := #[]
        output := {} }
    let expr : Expr := .array .start [.text .start "\x7ba\x7d"]
    expr.everywhere Expr.isPassive = true ∧ store.IsClosed ∧
      ∃ result later again latest,
        (ofExpr expr ⟨0⟩ store).EvaluatesTo expr result later ∧ later.Includes store ∧
          (ofExpr expr ⟨0⟩ later).EvaluatesTo expr again latest ∧
          SameResult later latest result again := by
  intro binding store expr
  have passive : expr.everywhere Expr.isPassive = true := rfl
  have closed : store.IsClosed := by
    refine ⟨?_, ?_, ?_⟩
    · simp [store, binding, Table.All, Value.IsIn]
    · simp [store, Value.IsIn]
    · simp [store]
  obtain ⟨result, later, evaluates, grown, -, repeats⟩ :=
    evaluatesTo_of_isPassive passive (ofExpr expr ⟨0⟩ store)
  obtain ⟨again, latest, evaluatesAgain, -, -, same⟩ := (repeats closed).2
  exact ⟨passive, closed, result, later, again, latest, evaluates, grown, evaluatesAgain, same⟩

end Machine
end TinyScript
