import Gatekeeper.Proofs.Credential.Identity
import Gatekeeper.Proofs.Store.Path

/-!
# Proofs/Store/Bearer — whose credential a node is for

A user and a component are made into a path in two steps: their identity is the name of a node, and
the name is put below the parent's path.  Either step can be taken back (`Identity.invertible`).  An
identity is taken apart into the user and the component that it was made of, and a path ends in the
name that was put there, which no other name would give.

Two things get lost.  Without a user there is nothing to find before the component's word, and of a
user's name with a separator the path ends in what stands behind it.  A path tells whose credential
its node is for if neither is so, and only then (`Identity.parts?_lastSegment_child_iff`).
-/

namespace Gatekeeper.Identity

/-- A component's word holds no separator, so it is the user's name that decides. -/
theorem isSegment_of_iff {username : String} {component : Component} :
    Path.IsSegment (of username component).text ↔ Path.IsSegment username := by
  have hword : '/' ∉ ("_" ++ component.word).toList := by cases component <;> decide
  rw [Path.isSegment_iff, Path.isSegment_iff, toList_of, List.mem_append]
  exact or_iff_left hword |>.not

/-- **A path tells whose credential its node is for** just if the user has a name, and it is a
segment. -/
theorem parts?_lastSegment_child_iff (parent : String) {username : String} {component : Component} :
    (Identity.mk (Path.lastSegment (Path.child parent (of username component).text))).parts?
        = some (username, component) ↔ username ≠ "" ∧ Path.IsSegment username := by
  have hseg : Path.IsSegment (of username component).text ↔ Path.IsSegment username :=
    isSegment_of_iff
  rw [parts?_eq_some_iff, ← hseg, ← Path.lastSegment_child_eq_iff parent]
  exact and_congr_right fun _ => ⟨congrArg Identity.text, congrArg Identity.mk⟩

/-- **Identities and the paths made of them can be taken apart again.**  Whatever a user's name is
made of, unless it is empty, the identity names this user and this component, and no other user at
any component has it.  A text that names a component is the identity of the user whom it names, and
of this component.  A child's path ends in the child's name, if no separator is in it, and no other
child stands under it.  So the path of a credential's node tells whose it is, just if the user has a
name without a separator. -/
theorem invertible :
    (∀ username component, (of username component).component? = some component ∧
        (of username component).username? = some username ↔ username ≠ "") ∧
    Function.Injective2 of ∧
    (∀ text component, (Identity.mk text).component? = some component ↔
      ∃ username, (Identity.mk text).username? = some username ∧ username ≠ "" ∧
        (of username component).text = text) ∧
    (∀ parent name, Path.lastSegment (Path.child parent name) = name ↔ '/' ∉ name.toList) ∧
    (∀ parent, Function.Injective (Path.child parent)) ∧
    ∀ parent username component,
      (Identity.mk (Path.lastSegment (Path.child parent (of username component).text))).parts?
          = some (username, component) ↔ username ≠ "" ∧ '/' ∉ username.toList := by
  refine ⟨?_, fun _ _ _ _ => of_injective, ?_, ?_, fun _ _ _ => Path.child_injective, ?_⟩
  · intro username component
    constructor
    · rintro ⟨-, h⟩
      exact (username?_eq_some_iff.mp h).1
    · intro hne
      exact ⟨component?_of hne component, username?_eq_some_iff.mpr ⟨hne, component, rfl⟩⟩
  · intro text component
    constructor
    · intro h
      obtain ⟨username, hne, hi⟩ := component?_eq_some_iff.mp h
      have huser : (Identity.mk text).username? = some username :=
        username?_eq_some_iff.mpr ⟨hne, component, hi⟩
      exact ⟨username, huser, hne, (congrArg Identity.text hi).symm⟩
    · rintro ⟨username, -, hne, rfl⟩
      exact component?_of hne component
  · intro parent name
    rw [Path.lastSegment_child_eq_iff, Path.isSegment_iff]
  · intro parent username component
    rw [parts?_lastSegment_child_iff, Path.isSegment_iff]

/-- The controller's user `ann_BROKER` is told from the broker's user `ann`, and `_BROKER` names
nobody.  The broker's user `x/y` is not found again in the path of the node. -/
theorem invertible_nested :
    ((of "ann_BROKER" .controller).component? = some .controller ∧
      (of "ann_BROKER" .controller).username? = some "ann_BROKER") ∧
    of "ann_BROKER" .controller ≠ of "ann" .broker ∧
    (Identity.mk "_BROKER").component? ≠ some .broker ∧
    Path.lastSegment (Path.child "/CONFIGS/USER//" "ann_BROKER_CONTROLLER")
      = "ann_BROKER_CONTROLLER" ∧
    Path.child "/CONFIGS/USER//" "ann_BROKER" ≠ Path.child "/CONFIGS/USER//" "ann" ∧
    (Identity.mk (Path.lastSegment (Path.child "/CONFIGS/USER//" (of "x/y" .broker).text))).parts?
      ≠ some ("x/y", .broker) := by
  obtain ⟨hof, hinj, htext, hlast, hchild, hparts⟩ := invertible
  refine ⟨(hof _ _).mpr (by decide), fun h => ?_, fun h => ?_, (hlast _ _).mpr (by decide),
    fun h => ?_, fun h => ?_⟩
  · exact absurd (hinj h).2 (by decide)
  · obtain ⟨username, -, hne, hi⟩ := (htext _ _).mp h
    exact hne (hinj (congrArg Identity.mk hi : of username .broker = of "" .broker)).1
  · exact absurd (hchild _ h) (by decide)
  · exact ((hparts _ _ _).mp h).2 (by decide)

end Gatekeeper.Identity
