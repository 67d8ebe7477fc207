import Gatekeeper.Credential.Identity
import Mathlib.Data.List.Infix

/-!
# Proofs/Credential/Identity — an identity determines whom it names

`Identity.of` is undone by `parts?`, whatever underscores or component words a user's name holds,
and what `parts?` finds makes the identity again (`parts?_eq_some_iff`): only the word at the end
counts, and the two words differ before either is used up (`of_injective`).  Identities that are
distinct are sorted into strictly ascending order (`ascending_mergeSort`).
-/

namespace Gatekeeper.Identity

theorem toList_of (username : String) (component : Component) :
    (of username component).text.toList
      = username.toList ++ ("_" ++ component.word).toList := by
  simp [of]

/-- **A user and a component are determined by their identity.** -/
theorem of_injective {u v : String} {c d : Component} (h : of u c = of v d) : u = v ∧ c = d := by
  have hl : u.toList ++ ("_" ++ c.word).toList = v.toList ++ ("_" ++ d.word).toList := by
    rw [← toList_of, ← toList_of, h]
  have hcd : c = d := by
    have hrev := congrArg List.reverse hl
    rw [List.reverse_append, List.reverse_append] at hrev
    -- read from the right, the two words part at their third letter
    cases c <;> cases d <;> first | rfl | (exfalso; simp [Component.word, Vocabulary.word] at hrev)
  subst hcd
  exact ⟨String.toList_inj.mp (List.append_cancel_right hl), rfl⟩

theorem stem?_eq_some_iff {i : Identity} {component : Component} {username : String} :
    i.stem? component = some username ↔ username ≠ "" ∧ i = of username component := by
  have key : ∀ rest : List Char,
      ("_" ++ component.word).toList.isSuffixOf? i.text.toList = some rest
        ↔ i = of (String.ofList rest) component := by
    intro rest
    rw [List.isSuffixOf?, Option.map_eq_some_iff]
    constructor
    · rintro ⟨r, hr, rfl⟩
      rw [List.isPrefixOf?_eq_some_iff_append_eq] at hr
      have htext : i.text = (of (String.ofList r.reverse) component).text := by
        rw [← String.toList_inj, toList_of, String.toList_ofList, ← List.reverse_inj, ← hr]
        simp
      cases i
      exact congrArg Identity.mk htext
    · rintro rfl
      refine ⟨rest.reverse, ?_, List.reverse_reverse rest⟩
      rw [List.isPrefixOf?_eq_some_iff_append_eq, toList_of]
      simp
  rw [stem?]
  constructor
  · intro h
    split at h
    · cases h
    · cases h
    · next c cs hrest =>
      cases h
      exact ⟨by simp [← String.toList_inj], (key _).mp hrest⟩
  · rintro ⟨hne, hi⟩
    have hrest := (key username.toList).mpr (by rw [String.ofList_toList]; exact hi)
    rw [hrest]
    cases hu : username.toList with
    | nil => exact absurd (String.toList_inj.mp hu) hne
    | cons c cs => exact congrArg some (by rw [← hu, String.ofList_toList])

/-- Each component's word is tried. -/
theorem mem_components (component : Component) : component ∈ (Vocabulary.all : List Component) := by
  cases component <;> simp [Vocabulary.all]

/-- The component that is found is one whose word fits. -/
theorem stem?_of_parts? {i : Identity} {username : String} {component : Component}
    (h : i.parts? = some (username, component)) : i.stem? component = some username := by
  obtain ⟨c, -, hc⟩ := List.exists_of_findSome?_eq_some h
  obtain ⟨u, hu, heq⟩ := Option.map_eq_some_iff.mp hc
  cases heq
  exact hu

/-- **What an identity is taken apart into** is the user and the component that it is made of, if
there is a user. -/
theorem parts?_eq_some_iff {i : Identity} {username : String} {component : Component} :
    i.parts? = some (username, component) ↔ username ≠ "" ∧ i = of username component := by
  rw [← stem?_eq_some_iff]
  refine ⟨stem?_of_parts?, fun h => ?_⟩
  have hfound : i.parts?.isSome = true := by
    rw [parts?, List.findSome?_isSome_iff]
    exact ⟨component, mem_components component, by rw [h]; rfl⟩
  obtain ⟨⟨v, d⟩, hparts⟩ := Option.isSome_iff_exists.mp hfound
  -- whichever word fits first, no other fits
  obtain ⟨-, hi⟩ := stem?_eq_some_iff.mp h
  obtain ⟨-, hi'⟩ := stem?_eq_some_iff.mp (stem?_of_parts? hparts)
  obtain ⟨rfl, rfl⟩ := of_injective (hi.symm.trans hi')
  exact hparts

/-- **An identity names a component** just if it is made of a user and this component. -/
theorem component?_eq_some_iff {i : Identity} {component : Component} :
    i.component? = some component ↔ ∃ username, username ≠ "" ∧ i = of username component := by
  simp only [component?, Option.map_eq_some_iff, Prod.exists, exists_eq_right, parts?_eq_some_iff]

/-- **An identity names a user** just if it is made of this user and a component. -/
theorem username?_eq_some_iff {i : Identity} {username : String} :
    i.username? = some username ↔ username ≠ "" ∧ ∃ component, i = of username component := by
  simp only [username?, Option.map_eq_some_iff, Prod.exists, exists_and_right, exists_eq_right,
    parts?_eq_some_iff, exists_and_left]

theorem component?_of {username : String} (h : username ≠ "") (component : Component) :
    (of username component).component? = some component :=
  component?_eq_some_iff.mpr ⟨username, h, rfl⟩

/-! ## Order -/

theorem compare_eq_lt_iff {i j : Identity} : compare i j = .lt ↔ i.text < j.text :=
  compareOfLessAndEq_eq_lt

theorem isLE_total (i j : Identity) : ((compare i j).isLE || (compare j i).isLE) = true := by
  have hswap : compare j i = (compare i j).swap := Std.OrientedCmp.eq_swap
  rw [hswap]
  cases compare i j <;> rfl

/-- **Distinct identities are sorted into strictly ascending order.** -/
theorem ascending_mergeSort {is : List Identity} (h : is.Nodup) :
    (is.mergeSort fun i j => (compare i j).isLE).Pairwise fun i j => i.text < j.text := by
  have hsorted : (is.mergeSort fun i j => (compare i j).isLE).Pairwise
      fun i j => (compare i j).isLE = true :=
    List.pairwise_mergeSort (fun _ _ _ => Std.TransCmp.isLE_trans) isLE_total is
  have hnodup := (List.mergeSort_perm is fun i j => (compare i j).isLE).nodup_iff.mpr h
  refine hsorted.imp₂ (fun i j hle hne => ?_) hnodup
  obtain hlt | heq := Ordering.isLE_iff_eq_lt_or_eq_eq.mp hle
  · exact compare_eq_lt_iff.mp hlt
  · exact absurd (Std.LawfulEqCmp.eq_of_compare heq) hne

end Gatekeeper.Identity
