import Gatekeeper.Proofs.Cache.Following

/-!
# Proofs/Cache/Reads — taking children in where reads do not fail

A cache that is told of children watches those that it did not watch, and loads each of them once
(`Cache.mem_watched_track`).  Where reads do not fail, it then holds of each new one what its node
stands for, and of the others what it held before (`Cache.get?_track`).
-/

namespace Gatekeeper

theorem Link.get_of_reads {l : Link} (hreads : ∀ f, (Call.get, f) ∉ l.faults) (path : String) :
    (l.get path).1 = .ok l.store.nodes[path]? := by
  obtain ⟨⟨f, hf⟩, -⟩ | hget := Link.get_cases l path
  · exact absurd hf (hreads f)
  · exact hget

namespace Cache

theorem mem_watched_trackChild {self : Watcher} {name n : String} {c : Cache} {l : Link} :
    n ∈ (trackChild self name c l).1.watched ↔ n = name ∨ n ∈ c.watched := by
  rw [trackChild]
  split
  · next hin => exact ⟨.inr, fun hn => hn.elim (fun heq => heq ▸ hin) id⟩
  · rw [load_watched, Std.ExtTreeSet.mem_insert, Std.compare_eq_iff_eq, eq_comm (a := n)]

/-- **Children that a cache is told of are watched**, beside those that it watched. -/
theorem mem_watched_track {self : Watcher} {n : String} : ∀ {names : List String} {c : Cache}
    {l : Link}, n ∈ (track self names c l).1.watched ↔ n ∈ names ∨ n ∈ c.watched
  | [], c, l => by simp [track]
  | name :: names, c, l => by
    rw [track, mem_watched_track, mem_watched_trackChild, List.mem_cons, or_assoc, or_left_comm]

section Reads

variable {l : Link} {name n : String}

theorem get?_load_of_reads (hreads : ∀ f, (Call.get, f) ∉ l.faults) (hname : Path.IsSegment name)
    (parent : String) (c : Cache) :
    (c.load (Path.child parent name) l).1.get? ⟨n⟩ =
      if n = name then (l.store.nodes[Path.child parent name]?.bind
        (c.vault.credentialAt name)).or (c.get? ⟨n⟩) else c.get? ⟨n⟩ := by
  have hget := Link.get_of_reads hreads (Path.child parent name)
  rw [load]
  split
  · next r _ heq =>
    rw [heq, Except.ok.injEq] at hget
    rw [get?_accept, Path.lastSegment_child parent hname, ← hget]
    rfl
  · next hno heq =>
    cases hnode : l.store.nodes[Path.child parent name]? with
    | none => exact (ite_self _).symm
    | some r =>
      rw [hnode, heq] at hget
      exact absurd hget (hno r)

theorem get?_trackChild (hreads : ∀ f, (Call.get, f) ∉ l.faults) (hname : Path.IsSegment name)
    (self : Watcher) (c : Cache) :
    (trackChild self name c l).1.get? ⟨n⟩ =
      if n = name ∧ n ∉ c.watched then (l.store.nodes[Path.child c.parent n]?.bind
        (c.vault.credentialAt n)).or (c.get? ⟨n⟩) else c.get? ⟨n⟩ := by
  rw [trackChild]
  split
  · next hin =>
    rw [if_neg]
    rintro ⟨rfl, hout⟩
    exact hout hin
  · next hout =>
    have hload := get?_load_of_reads (n := n)
      (l := l.watchData (Path.child c.parent name) self) hreads hname c.parent
      { c with watched := c.watched.insert name }
    refine hload.trans ?_
    by_cases hn : n = name
    · subst hn
      simp only [hout, not_false_eq_true, and_self, ↓reduceIte]
      rfl
    · simp only [hn, false_and, ↓reduceIte]
      rfl

/-- **A child that is taken in for the first time is found as its node has it**, and everything else
as it was before. -/
theorem get?_track (id : Nat) : ∀ {names : List String} {c : Cache} {l : Link},
    (∀ f, (Call.get, f) ∉ l.faults) → (∀ m ∈ names, Path.IsSegment m) →
      (track (.cache id) names c l).1.get? ⟨n⟩ =
        if n ∈ names ∧ n ∉ c.watched then (l.store.nodes[Path.child c.parent n]?.bind
          (c.vault.credentialAt n)).or (c.get? ⟨n⟩) else c.get? ⟨n⟩
  | [], c, _, _, _ => by simp [track]
  | name :: names, c, l, hreads, hnames => by
    have hakin := akin_trackChild (.cache id) name c l
    have hl := beside_trackChild (w := .recorder "") (v := .cache id) (by simp) name c l
    have hchild := get?_trackChild (n := n) hreads (hnames name List.mem_cons_self) (.cache id) c
    have hrest := get?_track id (c := (trackChild (.cache id) name c l).1)
      (fun f hf => hreads f (hl.faults hf)) fun m hm => hnames m (List.mem_cons_of_mem _ hm)
    rw [hakin.parent_eq, hakin.vault_eq, hl.nodes, hchild] at hrest
    simp only [mem_watched_trackChild] at hrest
    refine hrest.trans ?_
    by_cases hn : n = name
    · simp [hn]
    · simp [hn]

end Reads

end Cache

end Gatekeeper
