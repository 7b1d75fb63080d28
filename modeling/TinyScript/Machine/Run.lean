import TinyScript.Machine
import TinyScript.Text.Lines

/-!
# Runs

A run takes steps until the machine has ended, and has every question answered
by a host.  The host is a function of a state of its own, so a run is determined
by the machine and that state (`run_add`).
-/

namespace TinyScript

/-- What surrounds a program, as a function of a state. -/
structure Host (State : Type) where
  /-- The next line of input with its ending, which is empty when there is no more. -/
  readLine : State → List Char × State
  /-- The milliseconds since the session began. -/
  clock : State → Float × State
  /-- A number from zero up to one. -/
  random : State → Float × State
  /-- The functions of the surrounding program, which may change the store. -/
  call : (name : String) → (arguments : List Value) → (scope : ScopeRef) → Store → State →
    Except String Value × Store × State

namespace Host

variable {State : Type}

/-- Answers a question. -/
def reply (host : Host State) (request : Request) (store : Store) (state : State) :
    Except String Value × Store × State :=
  match request with
  | .readLine =>
    let (line, state) := host.readLine state
    (.ok (.string (String.ofList (Text.withoutLineBreaks line))), store, state)
  | .clock =>
    let (time, state) := host.clock state
    (.ok (.number time), store, state)
  | .random =>
    let (value, state) := host.random state
    (.ok (.number value), store, state)
  | .host name arguments scope => host.call name arguments scope store state

end Host

namespace Machine

variable {State : Type}

/-- Takes one step, or has a question answered. -/
def advance (host : Host State) (m : Machine) (state : State) : Machine × State :=
  match m.request? with
  | none => (m.step, state)
  | some request =>
    let (reply, store, state) := host.reply request m.store state
    (({ m with store := store } : Machine).answer reply, state)

/-- Advances a machine until it has ended, but not more than `limit` times. -/
def run (host : Host State) : (limit : Nat) → Machine → State → Machine × State
  | 0, m, state => (m, state)
  | limit + 1, m, state =>
    if m.outcome?.isSome then (m, state)
    else
      let (m, state) := m.advance host state
      run host limit m state

@[simp] theorem run_zero (host : Host State) (m : Machine) (state : State) :
    m.run host 0 state = (m, state) :=
  rfl

/-- A machine that has ended stays as it is. -/
theorem run_of_isSome {m : Machine} (ended : m.outcome?.isSome) (host : Host State)
    (limit : Nat) (state : State) : m.run host limit state = (m, state) := by
  cases limit with
  | zero => rfl
  | succ limit => simp [run, ended]

/-- What every step and every answer passes on is passed on by a run. -/
theorem run_preserves {p : Machine → Prop} (host : Host State)
    (advance : ∀ m state, p m → p (m.advance host state).1) {m : Machine} (begins : p m)
    (limit : Nat) (state : State) : p (m.run host limit state).1 := by
  induction limit generalizing m state with
  | zero => exact begins
  | succ limit ih =>
    simp only [run]
    split
    · exact begins
    · exact ih (advance m state begins) _

/-- A run can be interrupted after any number of steps and taken up again. -/
theorem run_add (host : Host State) (first second : Nat) (m : Machine) (state : State) :
    m.run host (first + second) state =
      (m.run host first state).1.run host second (m.run host first state).2 := by
  induction first generalizing m state with
  | zero => simp
  | succ first ih =>
    by_cases ended : m.outcome?.isSome
    · simp only [run_of_isSome ended]
    · rw [Nat.succ_add]
      simp only [run, ended, if_false, Bool.false_eq_true]
      exact ih _ _

end Machine
end TinyScript
