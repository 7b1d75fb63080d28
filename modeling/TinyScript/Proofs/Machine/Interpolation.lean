import TinyScript.Machine
import TinyScript.Proofs.Text.Filling

/-!
# String literals

The placeholders of a string literal are replaced one after the other, from left to right, by the
texts of the names that are visible (`interpolate_append`).
-/

namespace TinyScript
namespace Machine

/-- The text that a string literal evaluates to. -/
def interpolate (m : Machine) (text : String) : String :=
  Text.fill m.meaning? text

/-- A text gives itself, with its placeholders filled in. -/
theorem evaluate_text
    (m : Machine)
    (position : Position)
    (text : String) :
    m.evaluate (.text position text) = m.give (.string (m.interpolate text)) :=
  rfl

/-- A name in braces is replaced by the text of its value where the chain of scopes binds it, and
is kept where it does not.  It cuts the literal in two: what stands in front of it and what stands
behind it evaluate as they would alone, whatever braces they have, and the text that is put in for
it is not looked at again.  A literal without any such name that is bound stays as it is. -/
theorem interpolate_append
    (m : Machine) :
    (∀ front back name : String, Text.isWord name.toList = true →
      m.interpolate (front ++ ("\x7b" ++ name ++ "\x7d") ++ back) =
        m.interpolate front ++
          (match m.store.lookup? m.scope name with
            | some value => m.store.display value
            | none => "\x7b" ++ name ++ "\x7d") ++
          m.interpolate back) ∧
    ∀ text : String,
      (∀ name, Text.isWord name.toList = true → (m.store.lookup? m.scope name).isSome →
        ¬ Text.braced name <:+: text.toList) →
      m.interpolate text = text := by
  constructor
  · intro front back name isWord
    rw [interpolate, Text.fill_append_braced m.meaning? front back isWord]
    unfold meaning?
    cases m.store.lookup? m.scope name <;> rfl
  · intro text unbound
    refine Text.fill_of_unbound fun name isWord bound => unbound name isWord ?_
    rwa [meaning?, Option.isSome_map] at bound

/-- Braces stand open, closed and empty around a placeholder, and its text has the form of another
one. -/
theorem interpolate_append_of_nested :
    let root := Store.empty.newRoot
    let store :=
      (root.2.declare root.1 "a" (.string "\x7bb\x7d") false).declare root.1 "b" .void true
    let m : Machine := { control := .give .void, scope := root.1, stack := [], store := store }
    Text.isWord "a".toList = true ∧
      m.store.lookup? m.scope "a" = some (.string "\x7bb\x7d") ∧
      m.interpolate ("\x7bb" ++ ("\x7b" ++ "a" ++ "\x7d") ++ "\x7d\x7b\x7d\x7bb\x7d") =
        "\x7bb\x7bb\x7d\x7d\x7b\x7d" ∧
      Text.isWord "c".toList = true ∧
      (m.store.lookup? m.scope "c").isSome = false ∧
      m.interpolate "\x7bc\x7d\x7bb \x7d" = "\x7bc\x7d\x7bb \x7d" := by
  intro root store m
  have isWord : Text.isWord "a".toList = true := by decide +kernel
  have pieces := (interpolate_append m).1 "\x7bb" "\x7d\x7b\x7d\x7bb\x7d" "a" isWord
  refine ⟨isWord, rfl, pieces.trans (by decide +kernel), by decide +kernel, by decide +kernel, ?_⟩
  have missing : ∀ name, name ≠ "a" → name ≠ "b" → m.store.lookup? m.scope name = none := by
    intro name notA notB
    have unbound : store.binding? root.1 name = none := by
      rw [Store.binding?_declare_of_ne_name notB, Store.binding?_declare_of_ne_name notA]
      rfl
    have alone : m.store.chain m.scope = [root.1] := rfl
    rw [Store.lookup?, alone, List.findSome?_singleton, unbound]
    rfl
  refine (interpolate_append m).2 _ fun name _ bound => ?_
  by_cases isA : name = "a"
  · subst isA
    decide +kernel
  by_cases isB : name = "b"
  · subst isB
    decide +kernel
  rw [missing name isA isB] at bound
  cases bound

end Machine
end TinyScript
