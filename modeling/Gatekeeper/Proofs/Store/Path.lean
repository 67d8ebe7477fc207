import Gatekeeper.Store.Basic
import Mathlib.Data.List.Infix

/-!
# Proofs/Store/Path — the children of a node, and the paths they stand under

A **segment** is a name without a separator.  The names that `Store.children` lists are exactly the
segments under which there is a node (`mem_children`), in strictly ascending order
(`children_ascending`).  A child's path determines its name (`child_injective`), ends in it just if
it is a segment (`lastSegment_child_eq_iff`) and, when the parent's path is written without a
separator at its end, determines its parent (`parent?_child`).

The listing goes through a range of the paths.  That nothing is missed rests on their order: what
stands between a stem and a path that begins with it begins with it too (`prefix_of_between`).
-/

namespace Gatekeeper

namespace Path

/-- A name that is a single segment of a path: no separator is in it. -/
def IsSegment (name : String) : Prop := ∀ c ∈ name.toList, isSlash c = false

instance (name : String) : Decidable (IsSegment name) :=
  List.decidableBAll (fun c => isSlash c = false) name.toList

/-- A path that is written without a separator at its end. -/
def IsBare (path : String) : Prop := path.toList.getLast? ≠ some '/'

instance (path : String) : Decidable (IsBare path) :=
  inferInstanceAs (Decidable (path.toList.getLast? ≠ some '/'))

theorem isSegment_iff {name : String} : IsSegment name ↔ '/' ∉ name.toList := by
  simp only [IsSegment, isSlash, beq_eq_false_iff_ne]
  exact ⟨fun h hc => h _ hc rfl, fun h c hc heq => h (heq ▸ hc)⟩

/-- The last segment of a path is one. -/
theorem isSegment_lastSegment (path : String) : IsSegment (lastSegment path) := by
  intro c hc
  simp only [lastSegment, String.toList_ofList, List.mem_reverse] at hc
  simpa using List.all_eq_true.mp (List.all_takeWhile (p := (!isSlash ·))) c hc

/-- **A child's last segment is its name** just if the name is a single segment. -/
theorem lastSegment_child_eq_iff (parent : String) {name : String} :
    lastSegment (child parent name) = name ↔ IsSegment name := by
  refine ⟨fun h => ?_, lastSegment_child parent⟩
  rw [← h]
  exact isSegment_lastSegment (child parent name)

theorem childStem_of_isBare {parent : String} (h : IsBare parent) :
    childStem parent = parent.toList ++ ['/'] := by
  have hdrop : parent.toList.reverse.dropWhile isSlash = parent.toList.reverse := by
    refine Text.dropWhile_eq_self fun c hc => ?_
    rw [List.head?_reverse] at hc
    have hne : c ≠ '/' := fun heq => h (heq ▸ hc)
    simpa [isSlash] using hne
  rw [childStem, Text.dropEndWhile, hdrop, List.reverse_reverse]

/-- **A child's path determines its name.** -/
theorem child_injective {parent n m : String} (h : child parent n = child parent m) : n = m := by
  have hl : childStem parent ++ n.toList = childStem parent ++ m.toList := by
    rw [← toList_child, ← toList_child, h]
  exact String.toList_inj.mp (List.append_cancel_left hl)

theorem childName?_eq_some_iff {parent path name : String} :
    childName? parent path = some name ↔ IsSegment name ∧ path = child parent name := by
  rw [childName?]
  constructor
  · intro h
    split at h
    · next rest hrest =>
      split at h
      · cases h
      · next hseg =>
        cases h
        rw [List.isPrefixOf?_eq_some_iff_append_eq] at hrest
        refine ⟨fun c hc => ?_, ?_⟩
        · rw [String.toList_ofList] at hc
          simp only [List.any_eq_true, not_exists, not_and, Bool.not_eq_true] at hseg
          exact hseg c hc
        · rw [child, String.toList_ofList, hrest, String.ofList_toList]
    · cases h
  · rintro ⟨hseg, rfl⟩
    have hpre : (childStem parent).isPrefixOf? (child parent name).toList = some name.toList := by
      rw [List.isPrefixOf?_eq_some_iff_append_eq, toList_child]
    have hany : name.toList.any isSlash = false := by
      rw [List.any_eq_false]
      exact fun c hc => by simp [hseg c hc]
    rw [hpre]
    simp [hany]

/-- **A child's parent is the node it is a child of**, where the parent's path is bare. -/
theorem parent?_child {parent name : String} (hname : IsSegment name) (hbare : IsBare parent) :
    parent? (child parent name) = some parent := by
  have hrev : (child parent name).toList.reverse
      = name.toList.reverse ++ '/' :: parent.toList.reverse := by
    rw [toList_child, childStem_of_isBare hbare]
    simp
  have hall : ∀ c ∈ name.toList.reverse, (!isSlash c) = true := fun c hc => by
    simp [hname c (List.mem_reverse.mp hc)]
  rw [parent?, hrev, List.dropWhile_append_of_pos hall]
  simp [isSlash]

/-- **The paths with a bare parent are those of its children.** -/
theorem parent?_eq_some_iff {parent path : String} (hbare : IsBare parent) :
    parent? path = some parent ↔ (childName? parent path).isSome = true := by
  constructor
  · intro h
    refine Option.isSome_iff_exists.mpr
      ⟨lastSegment path, childName?_eq_some_iff.mpr ⟨isSegment_lastSegment path, ?_⟩⟩
    rw [parent?] at h
    split at h
    · cases h
    · next c before hdrop =>
      obtain rfl := Option.some.inj h
      have hslash : c = '/' := by
        simpa [isSlash] using Text.head_dropWhile_eq_false (!isSlash ·) hdrop
      have hpath : path.toList = before.reverse ++ '/' :: (lastSegment path).toList := by
        rw [lastSegment, String.toList_ofList, ← List.reverse_inj, ← hslash]
        simp [← hdrop]
      rw [← String.toList_inj, toList_child, childStem_of_isBare hbare, String.toList_ofList, hpath]
      simp
  · intro h
    obtain ⟨name, hname⟩ := Option.isSome_iff_exists.mp h
    obtain ⟨hseg, rfl⟩ := childName?_eq_some_iff.mp hname
    exact parent?_child hseg hbare

/-! ## Order -/

theorem compare_eq_lt_iff {p q : String} : compare p q = .lt ↔ p.toList < q.toList :=
  compareOfLessAndEq_eq_lt

theorem isLE_compare_iff {p q : String} : (compare p q).isLE = true ↔ ¬q.toList < p.toList := by
  have hswap : compare q p = (compare p q).swap := Std.OrientedCmp.eq_swap
  rw [← compare_eq_lt_iff, hswap]
  cases compare p q <;> simp

/-- **What stands between a stem and a path that begins with it begins with it too.** -/
theorem prefix_of_between : ∀ {stem q rest : List Char},
    ¬q < stem → q < stem ++ rest → stem <+: q
  | [], _, _, _, _ => List.nil_prefix
  | _ :: _, [], _, hle, _ => absurd (List.nil_lt_cons ..) hle
  | c :: stem, d :: q, rest, hle, hlt => by
    rw [List.cons_append, List.cons_lt_cons_iff] at hlt
    rw [List.cons_lt_cons_iff] at hle
    obtain hdc | ⟨rfl, hlt⟩ := hlt
    · exact absurd (.inl hdc) hle
    · have hq : stem <+: q := prefix_of_between (fun h => hle (.inr ⟨rfl, h⟩)) hlt
      exact List.cons_prefix_cons.mpr ⟨rfl, hq⟩

theorem append_lt_append_left_iff {stem : List Char} : ∀ {m n : List Char},
    stem ++ m < stem ++ n ↔ m < n := by
  induction stem with
  | nil => exact Iff.rfl
  | cons c stem ih => simp [ih]

/-- A stem does not stand behind the paths that begin with it. -/
theorem not_lt_of_prefix {stem q : List Char} (h : stem <+: q) : ¬q < stem := by
  obtain ⟨rest, rfl⟩ := h
  have hlt : ¬stem ++ rest < stem ++ [] := by
    rw [append_lt_append_left_iff]
    exact List.not_lt_nil rest
  rwa [List.append_nil] at hlt

/-- What is found at the beginning of a list is all that there is, if it stands there. -/
theorem takeWhile_eq_filter {α : Type} {p : α → Bool} {xs : List α}
    (h : xs.Pairwise fun x y => p y = true → p x = true) : xs.takeWhile p = xs.filter p := by
  induction h with
  | nil => rfl
  | @cons x xs hx _ ih =>
    cases hp : p x with
    | true => rw [List.takeWhile_cons_of_pos hp, List.filter_cons_of_pos hp, ih]
    | false =>
      have hnone : ∀ y ∈ xs, ¬p y = true := fun y hy hpy => by simp [hx y hy hpy] at hp
      rw [List.takeWhile_cons_of_neg (by simp [hp]), List.filter_cons_of_neg (by simp [hp]),
        List.filter_eq_nil_iff.mpr hnone]

/-- The children of a node stand in the order of their names. -/
theorem child_lt_child_iff {parent n m : String} :
    (child parent n).toList < (child parent m).toList ↔ n < m := by
  rw [toList_child, toList_child, append_lt_append_left_iff]
  exact Iff.rfl

end Path

namespace Store

variable {s : Store} {parent name path : String}

/-- The nodes below a path are those whose path begins with the stem: none is missed. -/
theorem mem_below : path ∈ s.below parent ↔
    path ∈ s.nodes ∧ Path.childStem parent <+: path.toList := by
  have hrange : (s.nodes.keys.filter
      fun q => (compare (String.ofList (Path.childStem parent)) q).isLE).Pairwise
        fun p q => (Path.childStem parent).isPrefixOf q.toList = true →
          (Path.childStem parent).isPrefixOf p.toList = true := by
    rw [List.pairwise_filter]
    refine Std.ExtTreeMap.ordered_keys.imp fun {p q} hlt hp _ hq => ?_
    obtain ⟨rest, hrest⟩ := List.isPrefixOf_iff_prefix.mp hq
    rw [Path.compare_eq_lt_iff, ← hrest] at hlt
    rw [Path.isLE_compare_iff, String.toList_ofList] at hp
    exact List.isPrefixOf_iff_prefix.mpr (Path.prefix_of_between hp hlt)
  rw [below, Path.takeWhile_eq_filter hrange]
  simp only [List.mem_filter, Std.ExtTreeMap.mem_keys, Path.isLE_compare_iff,
    String.toList_ofList, List.isPrefixOf_iff_prefix, and_assoc]
  exact and_congr_right fun _ => and_iff_right_of_imp Path.not_lt_of_prefix

theorem below_ascending : (s.below parent).Pairwise fun p q => compare p q = .lt :=
  Std.ExtTreeMap.ordered_keys.sublist
    ((List.takeWhile_sublist _).trans List.filter_sublist)

/-- **The children of a node are the segments under which there is a node.** -/
theorem mem_children :
    name ∈ s.children parent ↔ Path.IsSegment name ∧ Path.child parent name ∈ s.nodes := by
  simp only [children, List.mem_filterMap, mem_below, Path.childName?_eq_some_iff]
  constructor
  · rintro ⟨path, ⟨hpath, -⟩, hseg, rfl⟩
    exact ⟨hseg, hpath⟩
  · rintro ⟨hseg, hpath⟩
    exact ⟨_, ⟨hpath, by rw [Path.toList_child]; exact List.prefix_append _ _⟩, hseg, rfl⟩

/-- **The children of a node are listed in strictly ascending order.** -/
theorem children_ascending (s : Store) (parent : String) :
    (s.children parent).Pairwise (· < ·) := by
  refine below_ascending.filterMap _ fun p q hlt n hn m hm => ?_
  obtain ⟨-, rfl⟩ := Path.childName?_eq_some_iff.mp hn
  obtain ⟨-, rfl⟩ := Path.childName?_eq_some_iff.mp hm
  exact Path.child_lt_child_iff.mp (Path.compare_eq_lt_iff.mp hlt)

/-- The children of a node depend on the nodes alone. -/
theorem children_congr {t : Store} (h : s.nodes = t.nodes) (parent : String) :
    s.children parent = t.children parent := by
  rw [children, children, below, below, h]

end Store

end Gatekeeper
