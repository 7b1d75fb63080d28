import Mathlib.Data.List.Induction
import TinyScript.Proofs.Machine.Seclusion
import TinyScript.Proofs.Machine.Sequence
import TinyScript.Proofs.Store.Assignment

/-!
# Parameters

A call opens one scope inside the one that its function was made in, and binds the parameters in
it from the first to the last: to the arguments as long as there are any, and then to the values
of the defaults, each of which is evaluated where the function was made when its turn has come.
Nothing leads to the scope of the call before the body begins, so the body finds just these
bindings in it (`call_function`).
-/

namespace TinyScript

/-! ## Tables that are written in order -/

namespace Table

variable {α : Type}

/-- The last pair of a list is inserted last. -/
theorem ofList_append_singleton
    (pairs : List (String × α))
    (last : String × α) :
    ofList (pairs ++ [last]) = (ofList pairs).insert last.1 last.2 := by
  simp only [ofList, List.foldl_append, List.foldl_cons, List.foldl_nil]

/-- A key keeps the place of its first writing. -/
theorem keys_ofList
    (pairs : List (String × α)) :
    (ofList pairs).keys = (pairs.map Prod.fst).eraseDups := by
  induction pairs using List.reverseRecOn with
  | nil => rfl
  | append_singleton pairs last ih =>
    rw [ofList_append_singleton, List.map_append, List.eraseDups_append]
    by_cases present : last.1 ∈ (ofList pairs).keys
    · rw [keys_insert_of_contains (contains_iff_mem_keys.2 present), ih]
      rw [ih, List.mem_eraseDups] at present
      simp [List.removeAll, present]
    · rw [keys_insert_of_not_contains
        (Bool.eq_false_iff.2 fun contains => present (contains_iff_mem_keys.1 contains)), ih]
      rw [ih, List.mem_eraseDups] at present
      simp [List.removeAll, present, List.eraseDups_cons]

/-- A key has the value of its last writing. -/
theorem find?_ofList
    (pairs : List (String × α))
    (key : String) :
    (ofList pairs).find? key = pairs.reverse.lookup key := by
  induction pairs using List.reverseRecOn with
  | nil => rfl
  | append_singleton pairs last ih =>
    rw [ofList_append_singleton, List.reverse_append, List.reverse_singleton,
      List.singleton_append, List.lookup_cons]
    by_cases same : key = last.1
    · subst same
      simp
    · rw [find?_insert_of_ne same, ih, beq_false_of_ne same]

end Table

namespace Machine

variable {State : Type}

/-! ## What parameters are bound to -/

/-- Parameters are bound one after the other in a scope, to the arguments as long as there are any.
A default is evaluated in the scope that the function was made in, in the store and with the host
that those before it have left; a missing argument without a default is undefined, and one too many
is dropped.  The values are those that the parameters are bound to. -/
inductive Binds (host : Host State) (home captured : ScopeRef) :
    List Parameter → List Value → Store × State → List Value → Store × State → Prop
  | done {surplus : List Value} {moment : Store × State} :
      Binds host home captured [] surplus moment [] moment
  | argument {parameter : Parameter} {parameters : List Parameter} {given : Value}
      {arguments values : List Value} {store : Store} {state : State} {later : Store × State} :
      Binds host home captured parameters arguments
        (store.declare home parameter.name given false, state) values later →
      Binds host home captured (parameter :: parameters) (given :: arguments) (store, state)
        (given :: values) later
  | missing {name : String} {parameters : List Parameter} {values : List Value} {store : Store}
      {state : State} {later : Store × State} :
      Binds host home captured parameters [] (store.declare home name .undefined false, state)
        values later →
      Binds host home captured (.required name :: parameters) [] (store, state)
        (.undefined :: values) later
  | default {name : String} {default : Expr} {parameters : List Parameter} {value : Value}
      {values : List Value} {store : Store} {state next : State} {limit : Nat} {m : Machine}
      {later : Store × State} :
      (ofExpr default captured store).run host limit state = (m, next) →
      m.outcome? = some (.completed value) →
      Binds host home captured parameters [] (m.store.declare home name value false, next) values
        later →
      Binds host home captured (.optional name default :: parameters) [] (store, state)
        (value :: values) later

/-- Binding parameters comes to the default of one of them, for which there is no argument, at a
moment when all parameters before it are bound. -/
def ComesToDefault (host : Host State) (home captured : ScopeRef) (parameters : List Parameter)
    (arguments : List Value) (begin : Store × State) (default : Expr) (moment : Store × State) :
    Prop :=
  ∃ bound name rest values, parameters = bound ++ .optional name default :: rest ∧
    arguments.length ≤ bound.length ∧
    Binds host home captured bound arguments begin values moment

variable {host : Host State} {home captured : ScopeRef}

/-- Parameters that are bound before it do not change which default is evaluated next. -/
theorem ComesToDefault.cons
    {parameter : Parameter}
    {parameters : List Parameter}
    {arguments remaining : List Value}
    {begin next : Store × State}
    {default : Expr}
    {moment : Store × State}
    (first : ∀ bound values, Binds host home captured bound remaining next values moment →
      ∃ values, Binds host home captured (parameter :: bound) arguments begin values moment)
    (lengths : arguments.length ≤ remaining.length + 1)
    (comes : ComesToDefault host home captured parameters remaining next default moment) :
    ComesToDefault host home captured (parameter :: parameters) arguments begin default moment := by
  obtain ⟨bound, name, rest, values, rfl, enough, binds⟩ := comes
  obtain ⟨allValues, bindsAll⟩ := first bound values binds
  exact ⟨parameter :: bound, name, rest, allValues, rfl,
    Nat.le_trans lengths (Nat.succ_le_succ enough), bindsAll⟩

/-- Either all parameters are bound, or the evaluation of a default does not come to a value. -/
theorem binds_or_comesToDefault
    (host : Host State)
    (home captured : ScopeRef)
    (parameters : List Parameter)
    (arguments : List Value)
    (store : Store)
    (state : State) :
    (∃ values later, Binds host home captured parameters arguments (store, state) values later) ∨
      ∃ default now next,
        ComesToDefault host home captured parameters arguments (store, state) default (now, next) ∧
          ∀ limit value, ((ofExpr default captured now).run host limit next).1.outcome? ≠
            some (.completed value) := by
  induction parameters generalizing arguments store state with
  | nil => exact .inl ⟨[], _, .done⟩
  | cons parameter parameters ih =>
    cases arguments with
    | cons given arguments =>
      rcases ih arguments (store.declare home parameter.name given false) state with
        ⟨values, later, binds⟩ | ⟨default, now, next, comes, fails⟩
      · exact .inl ⟨given :: values, later, .argument binds⟩
      · exact .inr ⟨default, now, next,
          comes.cons (fun bound values binds => ⟨_, .argument binds⟩) (Nat.le_refl _), fails⟩
    | nil =>
      cases parameter with
      | required name =>
        rcases ih [] (store.declare home name .undefined false) state with
          ⟨values, later, binds⟩ | ⟨default, now, next, comes, fails⟩
        · exact .inl ⟨.undefined :: values, later, .missing binds⟩
        · exact .inr ⟨default, now, next,
            comes.cons (fun bound values binds => ⟨_, .missing binds⟩) (Nat.zero_le _), fails⟩
      | optional name default =>
        by_cases completes : ∃ limit value,
            ((ofExpr default captured store).run host limit state).1.outcome? =
              some (.completed value)
        · obtain ⟨limit, value, completed⟩ := completes
          rcases ih [] _ _ with ⟨values, later, binds⟩ | ⟨default, now, next, comes, fails⟩
          · exact .inl ⟨value :: values, later, .default rfl completed binds⟩
          · exact .inr ⟨default, now, next,
              comes.cons (fun bound values binds => ⟨_, .default rfl completed binds⟩)
                (Nat.zero_le _), fails⟩
        · exact .inr ⟨default, store, state, ⟨[], name, parameters, [], rfl, Nat.le_refl 0, .done⟩,
            fun limit value completed => completes ⟨limit, value, completed⟩⟩

/-! ## How a call binds its parameters -/

/-- The parameters for which there are arguments are bound first. -/
theorem Binds.behind_arguments
    {parameters : List Parameter}
    {arguments values : List Value}
    {store : Store}
    {state : State}
    {later : Store × State}
    (binds : Binds host home captured parameters arguments (store, state) values later) :
    ∃ values, Binds host home captured (parameters.drop arguments.length) []
      (bindArguments store home parameters arguments, state) values later := by
  induction parameters generalizing arguments values store with
  | nil =>
    cases binds
    refine ⟨[], ?_⟩
    rw [List.drop_nil, bindArguments]
    · exact .done
    · simp
  | cons parameter parameters ih =>
    cases arguments with
    | nil => exact ⟨values, binds⟩
    | cons given arguments =>
      cases binds with
      | argument binds => exact ih binds

/-- As long as there are no more arguments than parameters at the front, the other parameters get
nothing. -/
theorem bindArguments_append_of_le
    {bound : List Parameter}
    {arguments : List Value}
    (enough : arguments.length ≤ bound.length)
    (store : Store)
    (home : ScopeRef)
    (rest : List Parameter) :
    bindArguments store home (bound ++ rest) arguments =
      bindArguments store home bound arguments := by
  induction bound generalizing store arguments with
  | nil =>
    obtain rfl := List.eq_nil_of_length_eq_zero (Nat.le_zero.1 enough)
    cases rest <;> rfl
  | cons parameter bound ih =>
    cases arguments with
    | nil => rfl
    | cons given arguments => exact ih (Nat.le_of_succ_le_succ enough) _

/-- Work that is over by itself is over above frames as well. -/
theorem exists_run_under_of_isSome
    {m : Machine}
    {limit : Nat}
    {state : State}
    (ended : (m.run host limit state).1.outcome?.isSome) :
    ∃ count, ∀ base, (m.under base).run host count state =
      ((m.run host limit state).1.under base, (m.run host limit state).2) := by
  obtain ⟨count, bound, stops, same⟩ := exists_run_under (m := m) host limit state
  refine ⟨count, fun base => ?_⟩
  rw [same base]
  rcases stops with rfl | stopped
  · rfl
  · rw [run_of_le host stopped bound]

/-- An expression that comes to a value by itself comes to it above frames as well, and in the scope
that it began in. -/
theorem exists_run_above
    {expr : Expr}
    {scope : ScopeRef}
    {store : Store}
    {limit : Nat}
    {state next : State}
    {m : Machine}
    {value : Value}
    (evaluates : (ofExpr expr scope store).run host limit state = (m, next))
    (completed : m.outcome? = some (.completed value))
    (stack : List Frame) :
    ∃ count,
      ({ control := .evaluate expr, scope := scope, stack := stack, store := store } :
        Machine).run host count state =
          ({ control := .give value, scope := scope, stack := stack, store := m.store }, next) := by
  have ended : ((ofExpr expr scope store).run host limit state).1.outcome?.isSome := by
    rw [evaluates, completed]
    rfl
  have contained : (ofExpr expr scope store).Contained False scope := ⟨trivial, trivial, rfl⟩
  obtain ⟨gives, atPlace, atEnd⟩ : m.control = .give value ∧ m.scope = scope ∧ m.stack = [] := by
    have worked := contained.run host limit state
    rw [evaluates] at worked
    exact worked.of_completed completed
  obtain ⟨count, runsAbove⟩ := exists_run_under_of_isSome ended
  refine ⟨count, (runsAbove stack).trans ?_⟩
  rw [evaluates]
  simp only [under, gives, atPlace, atEnd, List.nil_append]

/-- The steps that bind parameters without arguments. -/
theorem Binds.exists_run
    {call : Activation}
    {bound : List Parameter}
    {values : List Value}
    {store : Store}
    {state : State}
    {later : Store × State}
    (binds : Binds host call.scope call.captured bound [] (store, state) values later)
    (rest : List Parameter)
    (scope : ScopeRef)
    (stack : List Frame) :
    ∃ steps last,
      ({ control := .bind call (bound ++ rest), scope := scope, stack := stack, store := store } :
        Machine).run host steps state =
          ({ control := .bind call rest, scope := last, stack := stack, store := later.1 },
            later.2) := by
  induction bound generalizing values store state scope with
  | nil =>
    cases binds
    exact ⟨0, scope, rfl⟩
  | cons parameter bound ih =>
    cases binds with
    | missing binds =>
      obtain ⟨steps, last, runs⟩ := ih binds scope
      exact ⟨steps + 1, last, (run_succ_of_step host rfl rfl steps state).trans runs⟩
    | @default name default _ value values _ _ next limit m _ evaluates completed binds =>
      let frame := Frame.parameter call name (bound ++ rest)
      obtain ⟨count, evaluated⟩ := exists_run_above evaluates completed (frame :: stack)
      obtain ⟨steps, last, runs⟩ := ih binds call.captured
      have bindsNext :
          ({ control := .give value, scope := call.captured, stack := frame :: stack,
             store := m.store } : Machine).run host (steps + 1) next =
            ({ control := .bind call rest, scope := last, stack := stack, store := later.1 },
              later.2) :=
        (run_succ_of_step host rfl rfl steps next).trans runs
      refine ⟨count + (steps + 1) + 1, last, ?_⟩
      rw [List.cons_append, run_succ_of_step host rfl rfl]
      refine (run_add host count (steps + 1) _ state).trans ?_
      exact (congrArg (fun now => now.1.run host (steps + 1) now.2) evaluated).trans bindsNext

/-- The steps of a call that bind its first parameters: those for which there are arguments, or
all. -/
theorem Binds.exists_run_call
    {m : Machine}
    {state : State}
    {function : Function}
    {arguments values : List Value}
    {position : Option Position}
    (atHand : m.control = .apply (.function function captured) arguments position)
    {bound rest : List Parameter}
    (split : function.parameters = bound ++ rest)
    (enough : arguments.length ≤ bound.length ∨ rest = [])
    {later : Store × State}
    (binds : Binds host (m.store.newChild captured).1 captured bound arguments
      ((m.store.newChild captured).2, state) values later) :
    ∃ steps last,
      m.run host steps state =
        ({ control :=
            .bind
              { scope := (m.store.newChild captured).1
                captured := captured
                caller := m.scope
                body := function.body } rest
           scope := last, stack := m.stack, store := later.1 }, later.2) := by
  obtain ⟨control, scope, stack, store⟩ := m
  obtain rfl : control = _ := atHand
  obtain ⟨others, bindsOthers⟩ := binds.behind_arguments
  obtain ⟨dropped, told⟩ :
      function.parameters.drop arguments.length = bound.drop arguments.length ++ rest ∧
        ∀ store home, bindArguments store home function.parameters arguments =
          bindArguments store home bound arguments := by
    rw [split]
    rcases enough with enough | rfl
    · exact ⟨List.drop_append_of_le_length enough,
        fun store home => bindArguments_append_of_le enough store home rest⟩
    · simp
  obtain ⟨steps, last, runs⟩ := @Binds.exists_run _ _
    { scope := (store.newChild captured).1
      captured := captured
      caller := scope
      body := function.body } _ _ _ _ _ bindsOthers rest scope stack
  refine ⟨steps + 1, last, (run_succ_of_step host rfl rfl steps state).trans ?_⟩
  simp only [step, apply, activate, dropped, told]
  exact runs

/-! ## What is found in the scope of a call -/

/-- Every parameter is bound to one value. -/
theorem Binds.length_values
    {parameters : List Parameter}
    {arguments values : List Value}
    {begin later : Store × State}
    (binds : Binds host home captured parameters arguments begin values later) :
    values.length = parameters.length := by
  induction binds with
  | done => rfl
  | argument _ ih => exact congrArg Nat.succ ih
  | missing _ ih => exact congrArg Nat.succ ih
  | default _ _ _ ih => exact congrArg Nat.succ ih

/-- A name with the value of a variable. -/
def asVariable (pair : String × Value) : String × Binding :=
  (pair.1, { value := pair.2, constant := false })

/-- A scope that nothing leads to has variables only, which were bound one after the other. -/
structure Gathers (home : ScopeRef) (around : List ScopeRef) (pairs : List (String × Value))
    (store : Store) : Prop where
  hides : store.Hides home
  scope : store.scope home =
    { ancestors := around, bindings := Table.ofList (pairs.map asVariable) }

namespace Gathers

variable {around : List ScopeRef} {pairs : List (String × Value)} {store : Store}

/-- No parameter is a constant in the scope of its call. -/
theorem isConstant_eq_false
    (gathers : Gathers home around pairs store)
    (name : String) :
    store.isConstant home name = false := by
  have unprotected : (Table.ofList (pairs.map asVariable)).All (·.constant = false) := by
    refine Table.all_ofList fun pair mem => ?_
    obtain ⟨_, _, rfl⟩ := List.mem_map.1 mem
    rfl
  rw [Store.isConstant, Store.binding?, gathers.scope]
  cases found : (Table.ofList (pairs.map asVariable)).find? name with
  | none => rfl
  | some binding => exact unprotected.find? found

/-- A parameter that is bound besides those before it is gathered with them. -/
theorem declare
    (gathers : Gathers home around pairs store)
    (name : String)
    {value : Value}
    (away : (Region.apart home).Holds value) :
    Gathers home around (pairs ++ [(name, value)]) (store.declare home name value false) where
  hides :=
    { known := (store.extends_declare home name value false).known gathers.hides.known
      others := gathers.hides.others.declare home name away false }
  scope := by
    have bindings := Store.bindings_declare_self gathers.hides.known name value false
    have chain := store.chain_declare home home name value false
    rw [gathers.isConstant_eq_false] at bindings
    cases declared : (store.declare home name value false).scope home with
    | mk ancestors table =>
      simp only [Store.chain, declared, gathers.scope, List.cons.injEq, true_and] at bindings chain
      rw [chain, bindings, List.map_append, List.map_singleton, Table.ofList_append_singleton]
      rfl

/-- The names have their first places, and their last values. -/
theorem bindings
    (gathers : Gathers home around pairs store) :
    (store.scope home).bindings.keys = (pairs.map Prod.fst).eraseDups ∧
      ∀ name, store.binding? home name =
        (pairs.reverse.lookup name).map fun value => { value := value, constant := false } := by
  constructor
  · rw [gathers.scope, Table.keys_ofList, List.map_map]
    rfl
  · intro name
    rw [Store.binding?, gathers.scope, Table.find?_ofList, ← List.map_reverse]
    induction pairs.reverse with
    | nil => rfl
    | cons pair rest ih =>
      rw [List.map_cons, asVariable, List.lookup_cons, List.lookup_cons]
      split
      · rfl
      · exact ih

end Gathers

/-- The evaluation of an expression in another scope begins outside of one that nothing leads to. -/
theorem outside_ofExpr
    {store : Store}
    (hides : store.Hides home)
    (differs : captured ≠ home)
    (expr : Expr) :
    (ofExpr expr captured store).Outside home captured where
  known := hides.known
  holds := ⟨⟨⟨hides.known, differs⟩, trivial⟩, ⟨trivial, by simp [ofExpr], hides.ofStore⟩⟩
  stays := ⟨differs, differs, trivial, trivial⟩
  contained := ⟨trivial, trivial, rfl⟩

/-- Whatever the defaults do, the scope of the call holds only what the parameters are bound to. -/
theorem Binds.gathers
    {unaware : State → Prop}
    (keepsOff : host.KeepsOff unaware home)
    (differs : captured ≠ home)
    {parameters : List Parameter}
    {arguments values : List Value}
    (away : ∀ given ∈ arguments, (Region.apart home).Holds given)
    {store : Store}
    {state : State}
    {later : Store × State}
    (binds : Binds host home captured parameters arguments (store, state) values later)
    {around : List ScopeRef}
    {pairs : List (String × Value)}
    (gathers : Gathers home around pairs store)
    (isUnaware : unaware state) :
    Gathers home around (pairs ++ (parameters.map Parameter.name).zip values) later.1 ∧
      unaware later.2 ∧ later.1.Extends store := by
  induction parameters generalizing arguments values store state pairs with
  | nil =>
    cases binds
    simpa using ⟨gathers, isUnaware, Store.Extends.refl store⟩
  | cons parameter parameters ih =>
    cases binds with
    | argument binds =>
      obtain ⟨first, others⟩ := List.forall_mem_cons.1 away
      obtain ⟨gathered, stillUnaware, grown⟩ :=
        ih others binds (gathers.declare parameter.name first) isUnaware
      rw [List.append_assoc] at gathered
      exact ⟨gathered, stillUnaware, grown.trans (store.extends_declare ..)⟩
    | missing binds =>
      obtain ⟨gathered, stillUnaware, grown⟩ := ih away binds (gathers.declare _ trivial) isUnaware
      rw [List.append_assoc] at gathered
      exact ⟨gathered, stillUnaware, grown.trans (store.extends_declare ..)⟩
    | @default name default _ value values _ _ next limit m _ evaluates completed binds =>
      have outside := outside_ofExpr gathers.hides differs default
      have spares := outside.run keepsOff isUnaware limit
      have gives := @Contained.of_completed _ _ (outside.contained.run host limit state) value
        (by rw [evaluates, completed])
      rw [evaluates] at spares gives
      have ofValue := spares.outside.holds.values.control
      rw [gives.1] at ofValue
      have left : Gathers home around pairs m.store :=
        ⟨spares.outside.hides, spares.scope.trans gathers.scope⟩
      obtain ⟨gathered, stillUnaware, grown⟩ := ih away binds
        (left.declare name ((Layout.ofValue_apart_iff spares.outside.known).1 ofValue))
        spares.unaware
      rw [List.append_assoc] at gathered
      exact ⟨gathered, stillUnaware,
        (grown.trans (m.store.extends_declare ..)).trans spares.grown⟩

/-- Nothing leads to a new scope. -/
theorem gathers_newChild
    {store : Store}
    (forest : store.Forest)
    (closed : store.AllIn .whole (Layout.known.OfValue store))
    (known : captured.index < store.scopes.size) :
    Gathers (store.newChild captured).1 (store.chain captured) [] (store.newChild captured).2 where
  hides :=
    { known := store.newChild_known captured
      others := by
        have whole : (store.newChild captured).2.AllIn .whole (Layout.known.OfValue store) :=
          closed.newChild trivial
        have all : (store.newChild captured).2.AllIn .whole
            (Region.apart (store.newChild captured).1).Holds :=
          whole.imp fun value => Layout.holds_apart_of_known (Nat.le_refl _)
        refine
          { bindings := fun ref _ => all.bindings ref trivial
            items := fun ref _ => all.items ref trivial
            properties := fun ref _ => all.properties ref trivial
            around := fun ref _ outer mem => ?_
            newScopes := fun ref new => ?_
            newArrays := fun _ _ => trivial
            newObjects := fun _ _ => trivial }
        · -- The scopes around a scope were made before it, so none of them is the last one.
          have earlier := (forest.newChild known).lt_of_mem_ancestors mem
          have isKnown := Store.known_of_mem_ancestors mem
          rintro rfl
          rw [Store.size_newChild] at isKnown
          exact absurd earlier (Nat.not_lt_of_le (Nat.le_of_lt_succ isKnown))
        · rintro rfl
          rw [Store.size_newChild] at new
          exact Nat.not_succ_le_self _ new }
  scope := by
    have bindings : ((store.newChild captured).2.scope (store.newChild captured).1) =
        { ancestors := store.chain captured, bindings := .empty } := by
      simp [Store.newChild, Store.scope]
    exact bindings

/-! ## Calls -/

section Calls

variable {m : Machine} {state : State} {function : Function} {arguments : List Value}
  {position : Option Position}

/-- A default that fails, or asks to exit, ends the whole call so, and a default whose evaluation
does not end leaves the call without an end. -/
theorem ComesToDefault.call_ends
    (atHand : m.control = .apply (.function function captured) arguments position)
    {default : Expr}
    {now : Store}
    {next : State}
    (comes : ComesToDefault host (m.store.newChild captured).1 captured function.parameters
      arguments ((m.store.newChild captured).2, state) default (now, next)) :
    let alone := ofExpr default captured now
    (∀ limit outcome, (alone.run host limit next).1.outcome? = some outcome →
      (∀ value, outcome ≠ .completed value) →
        ∃ steps,
          (m.run host steps state).1.outcome? = some outcome ∧
            (m.run host steps state).1.store = (alone.run host limit next).1.store ∧
            (m.run host steps state).2 = (alone.run host limit next).2) ∧
    ((∀ limit, (alone.run host limit next).1.outcome? = none) →
      ∀ limit, (m.run host limit state).1.outcome? = none) := by
  intro alone
  obtain ⟨bound, name, rest, values, split, enough, binds⟩ := comes
  obtain ⟨steps, last, runs⟩ := binds.exists_run_call atHand split (.inl enough)
  obtain ⟨base, begins⟩ : ∃ base, ∀ more, m.run host (steps + (more + 1)) state =
      (alone.under base).run host more next := by
    let call : Activation :=
      { scope := (m.store.newChild captured).1, captured := captured, caller := m.scope,
        body := function.body }
    refine ⟨.parameter call name rest :: m.stack, fun more => ?_⟩
    rw [run_add, runs, run_succ_of_step host rfl rfl]
    rfl
  constructor
  · intro limit outcome ends noValue
    have ended : (alone.run host limit next).1.outcome?.isSome := by rw [ends]; rfl
    obtain ⟨count, runsAbove⟩ := exists_run_under_of_isSome ended
    refine ⟨steps + (count + 1), ?_⟩
    rw [begins, runsAbove]
    exact ⟨outcome?_under_of_ne ends noValue base, rfl, rfl⟩
  · intro endless limit
    obtain ⟨count, bound, stops, same⟩ := exists_run_under (m := alone) host limit next
    have atLimit : count = limit := stops.resolve_right (by simp [endless])
    subst atLimit
    have goesOn : (m.run host (steps + (count + 1)) state).1.outcome? = none := by
      rw [begins, same]
      exact outcome?_under base (endless count)
    cases ends : (m.run host count state).1.outcome? with
    | none => rfl
    | some outcome =>
      have ended : (m.run host count state).1.outcome?.isSome := by rw [ends]; rfl
      rw [run_of_le host ended (by omega), ends] at goesOn
      cases goesOn

/-- A call of a function opens a scope that was not there before, directly inside the one that the
function was made in.  If the parameters can all be bound, the body is begun in that scope, and the
scope holds just these bindings: each name once, in the place where it first stands among the
parameters, as a variable with the value that it was last bound to.  If binding comes to a default,
that is evaluated where the function was made, with the same scopes around as before the call and
never with the scope of the call among them, and leaves the scope of the call alone.  A default
that fails, or asks to exit, ends the call so, with the store as it has left it; and if no end is
found to it, neither is there one to the call.  Nothing else can happen. -/
theorem call_function
    {unaware : State → Prop}
    (atHand : m.control = .apply (.function function captured) arguments position)
    (forest : m.store.Forest)
    (closed : m.store.AllIn .whole (Layout.known.OfValue m.store))
    (known : ∀ value ∈ .function function captured :: arguments,
      Layout.known.OfValue m.store value)
    (keepsOff : host.KeepsOff unaware (m.store.newChild captured).1)
    (isUnaware : unaware state) :
    let home := (m.store.newChild captured).1
    let opened := (m.store.newChild captured).2
    let names := function.parameters.map Parameter.name
    (m.store.scopes.size ≤ home.index ∧ opened.scopes.size = m.store.scopes.size + 1 ∧
      opened.parent? home = some captured) ∧
    (∀ values later,
      Binds host home captured function.parameters arguments (opened, state) values later →
        (∃ steps, m.run host steps state =
          ({ control := .run function.body, scope := home, stack := .call m.scope :: m.stack,
             store := later.1 }, later.2)) ∧
        values.length = names.length ∧
        (later.1.scope home).ancestors = m.store.chain captured ∧
        (later.1.scope home).bindings.keys = names.eraseDups ∧
        ∀ name, later.1.binding? home name =
          ((names.zip values).reverse.lookup name).map fun value =>
            { value := value, constant := false }) ∧
    (∀ default now next,
      ComesToDefault host home captured function.parameters arguments (opened, state) default
        (now, next) →
        let alone := ofExpr default captured now
        now.chain captured = m.store.chain captured ∧
        (∀ limit, let reached := (alone.run host limit next).1
          home ∉ reached.store.chain reached.scope ∧
            reached.store.scope home = now.scope home) ∧
        (∀ limit outcome, (alone.run host limit next).1.outcome? = some outcome →
          (∀ value, outcome ≠ .completed value) →
            ∃ steps,
              (m.run host steps state).1.outcome? = some outcome ∧
                (m.run host steps state).1.store = (alone.run host limit next).1.store ∧
                (m.run host steps state).2 = (alone.run host limit next).2) ∧
        ((∀ limit, (alone.run host limit next).1.outcome? = none) →
          ∀ limit, (m.run host limit state).1.outcome? = none)) ∧
    ((∃ values later,
        Binds host home captured function.parameters arguments (opened, state) values later) ∨
      ∃ default now next,
        ComesToDefault host home captured function.parameters arguments (opened, state) default
            (now, next) ∧
          ∀ limit value, ((ofExpr default captured now).run host limit next).1.outcome? ≠
            some (.completed value)) := by
  intro home opened names
  have knownCaptured : captured.index < m.store.scopes.size := known _ List.mem_cons_self
  have differs : captured ≠ home :=
    fun same => Nat.ne_of_lt knownCaptured (congrArg ScopeRef.index same)
  have away : ∀ given ∈ arguments, (Region.apart home).Holds given := fun given mem =>
    Layout.holds_apart_of_known (Nat.le_refl _) (known given (List.mem_cons_of_mem _ mem))
  have begins := gathers_newChild forest closed knownCaptured
  refine ⟨⟨Nat.le_refl _, m.store.size_newChild captured, ?_⟩, fun values later binds => ?_,
    fun default now next comes => ?_, binds_or_comesToDefault host home captured _ _ _ _⟩
  · rw [Store.parent?, begins.scope]
    rfl
  · obtain ⟨gathered, -, -⟩ := binds.gathers keepsOff differs away begins isUnaware
    have lengths : values.length = names.length := by
      rw [binds.length_values, List.length_map]
    obtain ⟨keys, bindings⟩ := gathered.bindings
    refine ⟨?_, lengths, by rw [gathered.scope], ?_, bindings⟩
    · obtain ⟨steps, last, runs⟩ :=
        binds.exists_run_call atHand (List.append_nil _).symm (.inr rfl)
      refine ⟨steps + 1, ?_⟩
      rw [run_add, runs]
      rfl
    · rw [keys, List.nil_append, List.map_fst_zip (Nat.le_of_eq lengths.symm)]
  · have comesThere := comes
    obtain ⟨bound, name, rest, values, split, enough, binds⟩ := comesThere
    obtain ⟨gathered, stillUnaware, grown⟩ := binds.gathers keepsOff differs away begins isUnaware
    refine ⟨?_, fun limit => ?_, comes.call_ends atHand⟩
    · rw [Store.chain, (grown.trans (m.store.extends_newChild captured)).ancestors captured
        knownCaptured]
      rfl
    · have spares := (outside_ofExpr gathered.hides differs default).run keepsOff stillUnaware limit
      exact ⟨spares.outside.hides.not_mem_chain spares.outside.stays.scope, spares.scope⟩

end Calls

/-- A function is called with one argument from a scope that binds a variable of the same name as
the scope that the function was made in.  One default reads that variable, the next one writes it,
and the next one reads it again. -/
theorem call_function_of_defaults :
    let host : Host Nat :=
      { readLine := fun count => ([], count)
        clock := fun count => (0, count)
        random := fun count => (0, count)
        call := fun name _ caller store count =>
          (.ok .null, store.declare caller name (.bool true) false, count + 1) }
    let position : Position := { line := 0, column := 0, offset := 0 }
    let function : Function :=
      { name := none
        exported := false
        parameters :=
          [.required "a", .optional "b" (.name position "x"),
            .optional "c" (.assign position (.name position "x") (.null position)),
            .optional "d" (.name position "x"), .required "a"]
        body := [] }
    let root := Store.empty.newRoot
    let declared := root.2.declare root.1 "x" (.bool true) false
    let caller := declared.newChild root.1
    let store := caller.2.declare caller.1 "x" (.string "not seen") false
    let m : Machine :=
      { control := .apply (.function function root.1) [.string "first"] none
        scope := caller.1
        stack := []
        store := store }
    store.Forest ∧
    store.AllIn .whole (Layout.known.OfValue store) ∧
    (∀ value ∈ [.function function root.1, .string "first"], Layout.known.OfValue store value) ∧
    host.KeepsOff (fun _ => True) (store.newChild root.1).1 ∧
    ∃ steps,
      let begun := (m.run host steps 0).1
      begun.control = .run [] ∧ begun.scope = (store.newChild root.1).1 ∧
        (begun.store.scope begun.scope).bindings.keys = ["a", "b", "c", "d"] ∧
        (begun.store.lookup begun.scope "a").typeTag = .undefined ∧
        (begun.store.lookup begun.scope "b").typeTag = .boolean ∧
        (begun.store.lookup begun.scope "d").typeTag = .null := by
  intro host position function root declared caller store m
  have planted : store.Planted := by
    refine .declare caller.1 "x" (.string "not seen") false (.child root.1
      (.declare root.1 "x" (.bool true) false (.root (.bare rfl)) ?_) ?_) ?_ <;> decide
  have closed : store.AllIn .whole (Layout.known.OfValue store) := by
    have bare : Store.empty.AllIn .whole (Layout.known.OfValue store) := by
      refine Store.all_iff_allIn.1 ⟨?_, ?_, ?_⟩ <;> simp [Store.empty]
    have flag : Layout.known.OfValue store (.bool true) := trivial
    have text : Layout.known.OfValue store (.string "not seen") := trivial
    have rooted : declared.AllIn .whole (Layout.known.OfValue store) :=
      bare.newRoot.declare root.1 "x" flag false
    have called : caller.2.AllIn .whole (Layout.known.OfValue store) := rooted.newChild trivial
    exact called.declare caller.1 "x" text false
  have known : ∀ value ∈ [.function function root.1, .string "first"],
      Layout.known.OfValue store value := by
    intro value mem
    rcases List.mem_cons.1 mem with rfl | mem
    · show root.1.index < store.scopes.size
      decide
    · obtain rfl := List.mem_singleton.1 mem
      trivial
  have holds : (Region.apart (store.newChild root.1).1).Holds (.bool true) := trivial
  have keepsOff : host.KeepsOff (fun _ => True) (store.newChild root.1).1 :=
    { readLine := fun _ _ => trivial
      clock := fun _ _ => trivial
      random := fun _ _ => trivial
      call := fun name _ place store _ _ hides differs _ =>
        have grown := store.extends_declare place name (.bool true) false
        ⟨trivial, grown,
          ⟨grown.known hides.known,
            hides.others.declare place name holds false⟩,
          Store.scope_declare_of_ne (Ne.symm differs) store name (.bool true) false,
          fun value ok => by cases ok; trivial⟩ }
  obtain ⟨-, bound, -, -⟩ :=
    @call_function Nat host root.1 m 0 function [.string "first"] none (fun _ => True) rfl
      planted.forest closed known keepsOff trivial
  have reads : ∀ now : Store, (ofExpr (.name position "x") root.1 now).run host 1 0 =
      ({ control := .give (now.lookup root.1 "x"), scope := root.1, stack := [], store := now },
        0) :=
    fun _ => rfl
  have writes : ∀ now : Store,
      (ofExpr (.assign position (.name position "x") (.null position)) root.1 now).run host 3 0 =
        ({ control := .give .null, scope := root.1, stack := []
           store := now.assign root.1 "x" .null }, 0) :=
    fun _ => rfl
  have bindsIn : ∀ (home : ScopeRef) (opened : Store),
      let first := opened.declare home "a" (.string "first") false
      let second := first.declare home "b" (first.lookup root.1 "x") false
      let third := (second.assign root.1 "x" .null).declare home "c" .null false
      let fourth := third.declare home "d" (third.lookup root.1 "x") false
      Binds host home root.1 function.parameters [.string "first"] (opened, 0)
        [.string "first", first.lookup root.1 "x", .null, third.lookup root.1 "x", .undefined]
        (fourth.declare home "a" .undefined false, 0) :=
    fun home opened => .argument (.default (reads _) rfl (.default (writes _) rfl
      (.default (reads _) rfl (.missing .done))))
  have binds := bindsIn (store.newChild root.1).1 (store.newChild root.1).2
  obtain ⟨⟨steps, runs⟩, -, -, keys, -⟩ := bound _ _ binds
  refine ⟨planted.forest, closed, known, keepsOff, steps, ?_⟩
  rw [runs]
  refine ⟨rfl, rfl, keys, ?_, ?_, ?_⟩ <;> decide

end Machine
end TinyScript
