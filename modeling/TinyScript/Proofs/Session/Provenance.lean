import TinyScript.Proofs.Machine.Natives

/-!
# Where positions come from

A run only passes positions on.  Each position in what a program comes to is one of
the code that was in the store before, or one of the program, and which of the two it
is does not depend on the positions themselves (`exists_runProgram_relabel`).
-/

namespace TinyScript

/-! ## Positions of two origins -/

namespace Position

/-- A position marked as one of the code that was there before. -/
def asEarlier (position : Position) : Position :=
  { position with offset := 2 * position.offset }

/-- A position marked as one of the program. -/
def asLater (position : Position) : Position :=
  { position with offset := 2 * position.offset + 1 }

/-- A marked position without its mark, changed as its origin says. -/
def unmark (earlier later : Position → Position) (position : Position) : Position :=
  let origin : Position := { position with offset := position.offset / 2 }
  if position.offset % 2 = 0 then earlier origin else later origin

/-- Positions of the earlier program are told by their mark. -/
theorem unmark_asEarlier
    (earlier later : Position → Position) :
    unmark earlier later ∘ asEarlier = earlier := by
  funext position
  simp [unmark, asEarlier]

/-- Positions of the later program are told by their mark. -/
theorem unmark_asLater
    (earlier later : Position → Position) :
    unmark earlier later ∘ asLater = later := by
  funext position
  have odd : (2 * position.offset + 1) % 2 = 1 := by omega
  have half : (2 * position.offset + 1) / 2 = position.offset := by omega
  simp [unmark, asLater, odd, half]

/-- A marked position is changed as one of the two origins says. -/
theorem exists_unmark
    (position : Position) :
    ∃ origin,
      (∀ earlier later, unmark earlier later position = earlier origin) ∨
        ∀ earlier later, unmark earlier later position = later origin := by
  refine ⟨{ position with offset := position.offset / 2 }, ?_⟩
  by_cases even : position.offset % 2 = 0
  · exact .inl fun _ _ => if_pos even
  · exact .inr fun _ _ => if_neg even

end Position

/-! ## Installed stores at other places -/

variable {change : Position → Position}

theorem Value.Installed.relabel
    {value : Value}
    (installed : value.Installed) :
    (value.relabel change).Installed := by
  induction value with
  | native native => cases native <;> exact installed
  | method receiver method ih => exact ih installed
  | _ => trivial

/-- A property of values goes over to those with other positions. -/
theorem Store.All.relabel
    {p q : Value → Prop}
    {store : Store}
    (all : store.All p)
    (each : ∀ value, p value → q (value.relabel change)) :
    (store.relabel change).All q where
  scopes := by
    rintro _ mem entry entryMem
    obtain ⟨scope, scopeMem, rfl⟩ := Array.mem_map.1 mem
    obtain ⟨origin, originMem, rfl⟩ := List.mem_map.1 entryMem
    exact each _ (all.scopes scope scopeMem origin originMem)
  arrays := by
    rintro _ mem _ itemMem
    obtain ⟨items, itemsMem, rfl⟩ := Array.mem_map.1 mem
    obtain ⟨item, originMem, rfl⟩ := Array.mem_map.1 itemMem
    exact each _ (all.arrays items itemsMem item originMem)
  objects := by
    rintro _ mem entry entryMem
    obtain ⟨properties, propertiesMem, rfl⟩ := Array.mem_map.1 mem
    obtain ⟨origin, originMem, rfl⟩ := List.mem_map.1 entryMem
    exact each _ (all.objects properties propertiesMem origin originMem)

theorem Store.Installed.relabel
    {store : Store}
    (installed : store.Installed) :
    (store.relabel change).Installed :=
  All.relabel installed fun _ => Value.Installed.relabel

/-! ## Results at other places -/

/-- A diagnostic about another place. -/
def Session.Result.relabel (change : Position → Position) :
    Session.Result → Session.Result
  | .value given => .value (given.relabel change)
  | .refused diagnostic => .refused { diagnostic with position := diagnostic.position.map change }
  | .exited status => .exited status
  | .unfinished => .unfinished

/-- A run with other positions has the same result but for these. -/
theorem Session.resultOf_relabel
    (m : Machine) :
    resultOf (m.relabel change) = (resultOf m).relabel change := by
  unfold resultOf
  rw [Machine.outcome?_relabel]
  cases m.outcome? with
  | none => rfl
  | some outcome =>
    cases outcome with
    | failed fault =>
      obtain ⟨cause, position⟩ := fault
      cases position <;> rfl
    | _ => rfl

/-- A program with other positions begins in the same way. -/
theorem Machine.ofProgram_relabel
    (program : Program)
    (scope : ScopeRef)
    (store : Store) :
    (ofProgram program scope store).relabel change =
      ofProgram (program.map (Stmt.relabel change)) scope (store.relabel change) :=
  rfl

namespace Session

variable {State : Type} (host : Host State)

/-- What a program comes to depends on the positions of the code that is in the store, and on those
of the program itself, in one way for all positions. -/
theorem exists_runProgram_relabel
    {session : Session}
    (installed : session.store.Installed)
    (limit : Nat)
    (program : Program)
    (scope : ScopeRef)
    (state : State) :
    ∃ (result : Result) (store : Store) (next : State), ∀ earlier later : Position → Position,
      ({ session with store := session.store.relabel earlier } : Session).runProgram host limit
          (program.map (Stmt.relabel later)) scope state =
        (result.relabel (Position.unmark earlier later),
          { session with store := store.relabel (Position.unmark earlier later) }, next) := by
  let start :=
    Machine.ofProgram (program.map (Stmt.relabel Position.asLater)) scope
      (session.store.relabel Position.asEarlier)
  have marked : start.Installed := Machine.installed_ofProgram installed.relabel _ _
  refine ⟨resultOf (start.run host limit state).1, (start.run host limit state).1.store,
    (start.run host limit state).2, fun earlier later => ?_⟩
  have code :
      Stmt.relabel (Position.unmark earlier later) ∘ Stmt.relabel Position.asLater =
        Stmt.relabel later := by
    funext statement
    rw [Function.comp_apply, Stmt.relabel_relabel, Position.unmark_asLater]
  have unmarked :
      start.relabel (Position.unmark earlier later) =
        Machine.ofProgram (program.map (Stmt.relabel later)) scope
          (session.store.relabel earlier) := by
    rw [Machine.ofProgram_relabel, List.map_map, code, Store.relabel_relabel,
      Position.unmark_asEarlier]
  have moved := marked.run_relabel (Position.unmark earlier later) host limit state
  rw [unmarked] at moved
  simp only [runProgram, runMachine, moved, resultOf_relabel]
  rfl

end Session
end TinyScript
