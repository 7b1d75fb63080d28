import TinyScript.Proofs.Machine.Positions
import TinyScript.Proofs.Machine.Values

/-!
# Runs with the functions of the library

The only native functions that a session has of its own accord are those of the
library.  Without others, a run never asks for a function of the surrounding
program, and it is the same at other places.
-/

namespace TinyScript

/-- A value is not, and was not taken from, a function of the surrounding program. -/
def Value.Installed : Value → Prop
  | .native (.host _ _) => False
  | .method receiver _ => receiver.Installed
  | _ => True

/-- Being no function of the surrounding program is a lasting property of values. -/
theorem Value.lasting_installed :
    Value.Lasting .whole Value.Installed where
  null := trivial
  undefined := trivial
  void := trivial
  number _ := trivial
  bool _ := trivial
  string _ := trivial
  array _ := iff_of_true trivial trivial
  object _ := iff_of_true trivial trivial
  function _ _ _ := trivial
  method _ _ := Iff.rfl

/-- No function of the surrounding program is in a store. -/
def Store.Installed (store : Store) : Prop :=
  store.All Value.Installed

/-- No function of the surrounding program is in a machine. -/
def Machine.Installed (m : Machine) : Prop :=
  m.All Value.Installed

namespace Machine

variable {State : Type} {m : Machine}

/-- The code of a program holds no values, so a machine that begins with it has those of its
store. -/
theorem installed_ofProgram
    {store : Store}
    (installed : store.Installed)
    (program : Program)
    (scope : ScopeRef) :
    (ofProgram program scope store).Installed :=
  ⟨trivial, by simp [ofProgram], installed⟩

/-- A function written in the program is none of the surrounding one. -/
theorem installed_of_made?
    {value : Value}
    (made : m.made? = some value) :
    value.Installed := by
  obtain ⟨expr, function, atHand, isFunction, rfl⟩ := exists_function_of_made? made
  trivial

/-- The questions of a run without functions of the surrounding program are about its input, the
time and chance.  Their answers are texts and numbers, and leave the store as it is. -/
theorem Installed.exists_reply
    (installed : m.Installed)
    {request : Request}
    (asks : m.request? = some request)
    (host : Host State)
    (state : State) :
    (∀ guise, request.disguise guise = request) ∧
      ∃ answer next,
        (∀ region p, Value.Steady region p → p answer) ∧
          (∀ guise, answer.disguise guise = answer) ∧
            ∀ store, host.reply request store state = (.ok answer, store, next) := by
  obtain ⟨control, scope, stack, store⟩ := m
  cases control with
  | await asked position =>
    cases asks
    have ofRequest := installed.control
    cases request with
    | readLine =>
      exact ⟨fun _ => rfl, .string _, (host.readLine state).2, fun _ _ steady => steady.string _,
        fun _ => rfl, fun _ => rfl⟩
    | clock =>
      exact ⟨fun _ => rfl, .number _, (host.clock state).2, fun _ _ steady => steady.number _,
        fun _ => rfl, fun _ => rfl⟩
    | random =>
      exact ⟨fun _ => rfl, .number _, (host.random state).2, fun _ _ steady => steady.number _,
        fun _ => rfl, fun _ => rfl⟩
    | host name arguments scope => exact absurd ofRequest.1 (fun ⟨_, isNative⟩ => isNative)
  | _ => cases asks

/-- Without functions of the surrounding program, a machine takes a step, or goes on with an answer
in the same store. -/
theorem Installed.advance_eq
    (installed : m.Installed)
    (host : Host State)
    (state : State) :
    m.advance host state = (m.step, state) ∨
      ∃ answer next,
        (∀ region p, Value.Steady region p → p answer) ∧
          m.advance host state = (m.answer (.ok answer), next) := by
  unfold Machine.advance
  cases asks : m.request? with
  | none => exact .inl rfl
  | some request =>
    obtain ⟨_, answer, next, plain, _, reply⟩ := installed.exists_reply asks host state
    exact .inr ⟨answer, next, plain, by simp only [reply]⟩

/-- Answers are not written to the store. -/
theorem Installed.store_advance
    (installed : m.Installed)
    (host : Host State)
    (state : State) :
    (m.advance host state).1.store = m.step.store ∨ (m.advance host state).1.store = m.store := by
  rcases installed.advance_eq host state with steps | ⟨answer, next, _, answers⟩
  · rw [steps]
    exact .inl rfl
  · rw [answers]
    exact .inr (store_answer m _)

/-- No advance brings in a function of the surrounding program. -/
theorem Installed.advance
    (installed : m.Installed)
    (host : Host State)
    (state : State) :
    (m.advance host state).1.Installed := by
  have all : m.AllIn .whole Value.Installed := all_iff_allIn.1 installed
  rcases installed.advance_eq host state with steps | ⟨answer, next, plain, answers⟩
  · rw [steps]
    exact all_iff_allIn.2 (all.step Value.lasting_installed (fun _ _ => trivial)
      (fun _ _ => trivial) fun value => installed_of_made?)
  · rw [answers]
    exact all_iff_allIn.2 (all.answer (plain _ _ Value.lasting_installed.steady))

/-- No run brings in a function of the surrounding program. -/
theorem Installed.run
    (installed : m.Installed)
    (host : Host State)
    (limit : Nat)
    (state : State) :
    (m.run host limit state).1.Installed :=
  run_preserves host (fun _ state installed => installed.advance host state) installed limit state

/-- What every step passes on from store to store is passed on by a run. -/
theorem Installed.run_store
    {p : Store → Prop}
    (installed : m.Installed)
    (host : Host State)
    (step : ∀ m : Machine, p m.store → p m.step.store)
    (begins : p m.store)
    (limit : Nat)
    (state : State) :
    p (m.run host limit state).1.store := by
  have both :=
    run_preserves (p := fun m => m.Installed ∧ p m.store) host
      (fun m state ⟨installed, before⟩ => by
        refine ⟨installed.advance host state, ?_⟩
        rcases installed.store_advance host state with steps | same
        · rw [steps]
          exact step m before
        · rw [same]
          exact before)
      ⟨installed, begins⟩ limit state
  exact both.2

/-- The next step, or the next answer, does not depend on recoded code, where none is cut. -/
theorem Installed.advance_recode
    (installed : m.Installed)
    {recoding : Recoding}
    (keeps : recoding.cuts = false ∨ ∀ body, m.control ≠ .run body)
    (host : Host State)
    (state : State) :
    (m.recode recoding).advance host state =
      ((m.advance host state).1.recode recoding, (m.advance host state).2) := by
  unfold Machine.advance
  rw [request?_recode]
  cases asks : m.request? with
  | none => exact Prod.ext (step_recode recoding m keeps) rfl
  | some request =>
    obtain ⟨sameRequest, answer, next, _, sameAnswer, reply⟩ :=
      installed.exists_reply asks host state
    simp only [Option.map_some, Request.recode_of_disguise recoding sameRequest, reply]
    refine Prod.ext ?_ rfl
    have answered := answer_recode recoding m (.ok answer)
    simp only [Except.map, Value.recode_of_disguise recoding sameAnswer] at answered
    exact answered

/-- A run does not depend on positions. -/
theorem Installed.run_relabel
    (installed : m.Installed)
    (change : Position → Position)
    (host : Host State)
    (limit : Nat)
    (state : State) :
    (m.relabel change).run host limit state =
      ((m.run host limit state).1.relabel change, (m.run host limit state).2) := by
  simp only [relabel_eq_recode]
  induction limit generalizing m state with
  | zero => rfl
  | succ limit ih =>
    have moved :
        (m.recode (.moving change)).advance host state =
          ((m.advance host state).1.recode (.moving change), (m.advance host state).2) :=
      installed.advance_recode (.inl rfl) host state
    simp only [Machine.run, outcome?_recode, Option.isSome_map, moved]
    split
    · rfl
    · exact ih (installed.advance host state) _

end Machine
end TinyScript
