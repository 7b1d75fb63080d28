import TinyScript.Proofs.Machine.Layout
import TinyScript.Proofs.Session.Library

/-!
# Sessions that programs lead to

A session begins in a scope without a parent, with the functions of the library and without
any function of a program.
-/

namespace TinyScript

/-- A value is no function of a program or of the surrounding one, and was taken from none. -/
def Value.Plain : Value → Prop
  | .function _ _ => False
  | .native (.host _ _) => False
  | .method receiver _ => receiver.Plain
  | _ => True

/-- To be plain is a lasting property of values. -/
theorem Value.lasting_plain :
    Value.Lasting .whole Value.Plain where
  null := trivial
  undefined := trivial
  void := trivial
  number _ := trivial
  bool _ := trivial
  string _ := trivial
  array _ := iff_of_true trivial trivial
  object _ := iff_of_true trivial trivial
  function _ _ _ := trivial
  method _ _ := Iff.rfl

/-- Every lasting property that the functions of the library have is one of such values. -/
theorem Value.Plain.of_lasting
    {p : Value → Prop}
    (lasting : Value.Lasting .whole p)
    (natives : ∀ native, (Value.native native).Installed → p (.native native))
    {value : Value}
    (plain : value.Plain) :
    p value := by
  induction value with
  | null => exact lasting.null
  | undefined => exact lasting.undefined
  | void => exact lasting.void
  | number value => exact lasting.number value
  | bool value => exact lasting.bool value
  | string text => exact lasting.string text
  | array ref => exact (lasting.array ref).2 trivial
  | object ref => exact (lasting.object ref).2 trivial
  | function function captured => exact plain.elim
  | native native =>
    refine natives native ?_
    cases native with
    | host name arity => exact plain
    | _ => trivial
  | method receiver method ih => exact (lasting.method receiver method).2 (ih plain)

/-- There is no code in a plain value, and so none that fails a test. -/
theorem Value.Plain.everywhere
    {value : Value}
    (plain : value.Plain)
    (test : Expr → Bool) :
    value.Everywhere test := by
  induction value with
  | function made captured => exact plain.elim
  | method receiver method ih => exact ih plain
  | _ => trivial

namespace Session

/-- A session in which no program has been run, whose scopes have no parents. -/
structure Fresh (session : Session) : Prop where
  plain : session.store.All Value.Plain
  known : session.scope.index < session.store.scopes.size
  parentless : ∀ ref, session.store.chain ref = [ref]

/-- A function of the library is plain. -/
theorem plain_of_installed
    (native : Native)
    (installed : (Value.native native).Installed) :
    (Value.native native).Plain := by
  cases native <;> trivial

/-- A session without the library is fresh. -/
theorem fresh_bare :
    bare.Fresh where
  plain := all_bare
  known := by simp [bare, Store.newRoot, Store.empty]
  parentless ref := by
    obtain ⟨index⟩ := ref
    cases index <;> rfl

/-- A session with the library is fresh. -/
theorem fresh_standard :
    standard.Fresh := by
  obtain ⟨size, chain, -⟩ := Library.keeps_install bare.store bare.scope
  exact
    { plain := all_standard plain_of_installed Value.lasting_plain
      known := size.symm ▸ fresh_bare.known
      parentless := fun ref => (chain ref).trans (fresh_bare.parentless ref) }

/-- A host without input or functions, for which it is always the same moment. -/
def still : Host Unit where
  readLine _ := ([], ())
  clock _ := (0, ())
  random _ := (0, ())
  call _ _ _ store _ := (.ok .null, store, ())

/-- The sessions that programs lead to which are run one after the other in the global scope, each
for some number of steps. -/
inductive Reached {State : Type} (host : Host State) : List Program → Session → Prop
  | fresh {session} : session.Fresh → Reached host [] session
  | run {programs session} (program : Program) (limit : Nat) (state : State) :
      Reached host programs session →
      Reached host (programs ++ [program])
        (session.runProgram host limit program session.scope state).2.1

end Session
end TinyScript
