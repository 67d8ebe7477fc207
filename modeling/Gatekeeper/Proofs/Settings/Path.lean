import Gatekeeper.Proofs.Text.Blank
import Gatekeeper.Settings

/-!
# Proofs/Settings/Path — what is left of a path

`Settings.canonicalPath?` takes the blanks off both ends of a path, and then the `/`s off its end.
What is left starts with a `/` and does not end in one (`Rooted`), and the trimmed text is what is
left with `/`s after it (`canonicalPath?_eq_some_iff`).

Each of the two is done once.  A `/` that is taken off may have stood after a blank, and then the
path ends in this blank (`trimmed_eq_self_iff`).  Such a path is not left alone when it is given
again: it gets shorter, or is refused (`length_lt_of_canonicalPath?`).
-/

namespace Gatekeeper.Settings

open Text (isBlank trim trimmed dropEndWhile)

/-- A path that starts with a `/` and does not end in one. -/
def Rooted (path : String) : Prop :=
  path.toList.head? = some '/' ∧ path.toList.getLast? ≠ some '/'

instance : DecidablePred Rooted := fun _ => inferInstanceAs (Decidable (_ ∧ _))

theorem canonicalPath?_eq_some {path p : String} : canonicalPath? path = some p ↔
    p.toList.head? = some '/' ∧ dropEndWhile (· == '/') (trim path.toList) = p.toList := by
  rw [canonicalPath?]
  cases dropEndWhile (· == '/') (trim path.toList) with
  | nil =>
    simp only [reduceCtorEq, false_iff, not_and]
    intro hhead hnil
    simp [← hnil] at hhead
  | cons c cs =>
    by_cases hc : c = '/'
    · simp only [hc, if_true, Option.some.injEq, ← String.toList_inj, String.toList_ofList]
      constructor
      · intro h
        exact ⟨by rw [← h]; rfl, h⟩
      · exact And.right
    · simp only [hc, if_false, reduceCtorEq, false_iff, not_and]
      intro hhead hp
      rw [← hp] at hhead
      exact hc (Option.some.inj hhead)

/-- **What is kept of a path**: it is rooted, and what follows it in the trimmed text are `/`s. -/
theorem canonicalPath?_eq_some_iff {path p : String} : canonicalPath? path = some p ↔
    Rooted p ∧ ∃ slashes, trim path.toList = p.toList ++ slashes ∧ ∀ c ∈ slashes, c = '/' := by
  have hlast : (∀ c ∈ p.toList.getLast?, (c == '/') = false) ↔ p.toList.getLast? ≠ some '/' := by
    cases p.toList.getLast? <;> simp
  rw [canonicalPath?_eq_some, Text.dropEndWhile_eq_iff, hlast, Rooted]
  simp only [beq_iff_eq]
  constructor
  · rintro ⟨hhead, slashes, htrim, hslashes, hlast⟩
    exact ⟨⟨hhead, hlast⟩, slashes, htrim, hslashes⟩
  · rintro ⟨⟨hhead, hlast⟩, slashes, htrim, hslashes⟩
    exact ⟨hhead, slashes, htrim, hslashes, hlast⟩

/-- **A rooted path is left alone** just if there are no blanks at its end. -/
theorem canonicalPath?_self_iff {p : String} (h : Rooted p) :
    canonicalPath? p = some p ↔ trimmed p = p := by
  rw [canonicalPath?_eq_some_iff, Text.trimmed_eq_self_iff]
  constructor
  · rintro ⟨-, slashes, htrim, -⟩
    refine (Text.trim_sublist p.toList).eq_of_length_le ?_
    rw [htrim, List.length_append]
    exact Nat.le_add_right _ _
  · intro htrim
    exact ⟨h, [], by rw [htrim, List.append_nil], fun _ hc => absurd hc List.not_mem_nil⟩

/-- **A path with blanks at its end gets shorter**, if anything is left of it. -/
theorem length_lt_of_canonicalPath? {p q : String} (hp : trimmed p ≠ p)
    (h : canonicalPath? p = some q) : q.length < p.length := by
  obtain ⟨-, slashes, htrim, -⟩ := canonicalPath?_eq_some_iff.mp h
  have hlt := Text.length_trim_lt fun htrim => hp (Text.trimmed_eq_self_iff.mpr htrim)
  rw [htrim, List.length_append, String.length_toList, String.length_toList] at hlt
  omega

/-- The text ends in `/`s before which there is a blank, the blanks at its own end aside. -/
def HidesBlank (text : String) : Prop :=
  ∃ front blank slashes, trim text.toList = front ++ blank :: slashes ∧ isBlank blank = true ∧
    slashes ≠ [] ∧ ∀ c ∈ slashes, c = '/'

theorem isBlank_slash : isBlank '/' = false := by decide

/-- **There is a blank at the end of what is kept** just if it stood before the `/`s. -/
theorem trimmed_eq_self_iff {path p : String} (h : canonicalPath? path = some p) :
    trimmed p = p ↔ ¬HidesBlank path := by
  obtain ⟨⟨hhead, -⟩, slashes, htrim, hslashes⟩ := canonicalPath?_eq_some_iff.mp h
  rw [Text.trimmed_eq_self_iff, Text.trim_eq_self_iff]
  constructor
  · rintro ⟨-, hlast⟩ ⟨front, blank, slashes', htext, hblank, -, hslashes'⟩
    have hne : blank ≠ '/' := by
      rintro rfl
      rw [isBlank_slash] at hblank
      cases hblank
    have hp : p.toList = front ++ [blank] := by
      rw [← (canonicalPath?_eq_some.mp h).2]
      exact Text.dropEndWhile_eq_iff.mpr ⟨slashes', by simp [htext], by simpa using hslashes',
        by simpa using hne⟩
    simp [hp, hblank] at hlast
  · intro hhides
    refine ⟨by simp [hhead, isBlank_slash], fun c hc => ?_⟩
    obtain ⟨front, hp⟩ := List.getLast?_eq_some_iff.mp hc
    refine Bool.eq_false_iff.mpr fun hblank =>
      hhides ⟨front, c, slashes, by simp [htrim, hp], hblank, ?_, hslashes⟩
    -- If no `/` has been taken off, the path is the trimmed text, which does not end in a blank.
    rintro rfl
    rw [List.append_nil] at htrim
    rw [Text.getLast?_trim (by rwa [htrim])] at hblank
    cases hblank

end Gatekeeper.Settings
