import Gatekeeper.Credential.Vocabulary
import Std.Data.ExtTreeMap

/-!
# Credential/Identity — the text that names a credential

A credential is named by its user and its component: `Identity.of "ann" .broker` is the text
`ann_BROKER`.  An `Identity` is any text, since it may come from outside; `parts?` takes it apart
again, and fails on a text that ends in no component's word or has nothing before it.

The user's name may itself hold underscores or end in a component's word: only the last word counts.
Identities are ordered as their texts.
-/

namespace Gatekeeper

/-- A text that may name a credential. -/
structure Identity where
  /-- The text. -/
  text : String
  deriving DecidableEq, Repr, Inhabited

namespace Identity

/-- The identity of a user at a component. -/
def of (username : String) (component : Component) : Identity :=
  ⟨username ++ "_" ++ component.word⟩

/-- What stands before an underscore and the component's word, if the text ends so and something
does stand there. -/
def stem? (i : Identity) (component : Component) : Option String :=
  match ("_" ++ component.word).toList.isSuffixOf? i.text.toList with
  | none | some [] => none
  | some (c :: cs) => some (String.ofList (c :: cs))

/-- The user and the component that an identity names. -/
def parts? (i : Identity) : Option (String × Component) :=
  (Vocabulary.all : List Component).findSome? fun c => (i.stem? c).map (·, c)

/-- The component that an identity names. -/
def component? (i : Identity) : Option Component := i.parts?.map Prod.snd

/-- The user that an identity names. -/
def username? (i : Identity) : Option String := i.parts?.map Prod.fst

/-! ## Order -/

instance : Ord Identity := ⟨fun i j => compare i.text j.text⟩

/-- Identities compare as their texts. -/
theorem compare_eq (i j : Identity) : compare i j = compare i.text j.text := rfl

instance : Std.TransOrd Identity where
  eq_swap {i j} := by
    rw [compare_eq, compare_eq]
    exact Std.OrientedCmp.eq_swap
  isLE_trans {i j k} := by
    simp only [compare_eq]
    exact Std.TransCmp.isLE_trans

instance : Std.LawfulEqOrd Identity where
  compare_self {i} := by
    rw [compare_eq]
    exact Std.ReflCmp.compare_self
  eq_of_compare {i j} h := by
    rw [compare_eq] at h
    cases i
    cases j
    exact congrArg Identity.mk (Std.LawfulEqCmp.eq_of_compare h)

end Identity

end Gatekeeper
