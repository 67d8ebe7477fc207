import Gatekeeper.Proofs.Hub.Course

/-!
# Proofs/Hub/Lasting — what holds of a cache at every point of a course

Many properties of a cache speak of the cache, of the link that it reaches the store through, and of
the log so far.  Such a property is `Lasting` if it holds of a cache that has not been started, if
what others do cannot disturb it, and if each thing that may happen to the cache itself keeps it: a
write, the three steps of a start, a fault that is announced.  `Course.lasts` is the induction over
a course, done once: a lasting property holds of every cache at every point, and `Course.lasts_deeds`
adds the points in the middle of an act, after each write that took effect there.

Of a property that reads nothing of the records, the writes are kept as soon as every telling is
(`Holds.write_of_leads`).  The records themselves change in writes alone, whatever the caches do:
`Course.records` is the induction for what speaks of them and of the log.
-/

namespace Gatekeeper

open Std (ExtTreeMap)

namespace Hub

variable {z : Limits} {id : Nat}

/-- What is kept by others is kept of a cache that changes, if the change keeps it. -/
theorem Holds.changeCache {P : Cache → Link → Prop} {k : Nat}
    {f : Cache → Link → Cache × Link} {h : Hub} (hs : Stable id P)
    (hother : k ≠ id → ∀ (c : Cache) (l : Link), l.Beside (.cache id) (f c l).2)
    (hself : k = id → ∀ c, h.caches[id]? = some c → P c h.link → P (f c h.link).1 (f c h.link).2)
    (hP : Holds id P h) : Holds id P (h.changeCache k f) := by
  intro c' hc'
  rw [Hub.changeCache] at hc' ⊢
  cases hk : h.caches[k]? with
  | none =>
    simp only [hk] at hc' ⊢
    exact hP c' hc'
  | some c =>
    simp only [hk, ExtTreeMap.getElem?_insert, Std.compare_eq_iff_eq] at hc' ⊢
    split at hc'
    · next heq =>
      subst heq
      cases hc'
      exact hself rfl c hk (hP c hk)
    · next hne => exact hs c' _ _ (hother hne c h.link) (hP c' hc')

/-- Where there is no cache there is none after a write. -/
theorem holds_write_of_none {h : Hub} (hid : h.caches[id]? = none) (w : Write)
    (P : Cache → Link → Prop) : Holds id P (h.write w).2 := by
  have hno : Holds id (fun _ _ => False) h := fun c hc => by rw [hid] at hc; cases hc
  exact (hno.write_of_akin (fun _ _ _ hf => hf) w).imp fun _ _ hf => hf.elim

/-- A write keeps what every telling keeps, and what does not depend on the records. -/
theorem Holds.write_of_leads {P : Cache → Link → Prop} (hs : Stable id P)
    (hself : ∀ e, Leads id e P P) (hnodes : ∀ c l nodes, P c l → P c { l with store.nodes := nodes })
    {h : Hub} (hP : Holds id P h) (w : Write) : Holds id P (h.write w).2 := by
  obtain ⟨e, -, he⟩ | ⟨effect, heff, he⟩ := write_cases w h
  · rwa [he]
  · rw [he]
    refine Holds.deliver hs hself fun c hc => ?_
    rw [Store.effect_store heff]
    exact hnodes c h.link _ (hP c hc)

theorem changeCache_nodes {f : Cache → Link → Cache × Link} (h : Hub)
    (hf : ∀ c l, (f c l).2.store.nodes = l.store.nodes) :
    (h.changeCache id f).store.nodes = h.store.nodes := by
  rw [Hub.changeCache]
  split
  · rfl
  · exact hf _ _

/-- **A property that lasts**, in the light of the log: it holds of a cache that has not been
started, and all that may happen within the limits keeps it. -/
structure Lasting (z : Limits) (id : Nat) (P : List Deed → Cache → Link → Prop) : Prop where
  /-- Others do not disturb it. -/
  stable : ∀ log, Stable id (P log)
  fresh : ∀ parent vault order, P [] (.fresh parent vault order) .empty
  fault : ∀ {log c l call} f, z.faults call → P log c l → P log c (l.addFault call f)
  write : ∀ {log h w}, Course z log h → z.writes w → Holds id (P log) h →
    Holds id (P (log ++ Deed.of w (h.write w).1 (h.write w).2.caches)) (h.write w).2
  register : ∀ {log c l}, P log c l →
    P log { c with phase := .syncing } (l.watchChildren c.parent (.cache id))
  giveUp : ∀ {log c l}, P log c l → P log { c with phase := .uninitialized } l
  settle : ∀ {log c l names}, c.phase = .syncing → (∀ n ∈ names, Path.IsSegment n) → P log c l →
    P log { (c.track (.cache id) names l).1 with phase := .ready, stamped := true }
      (c.track (.cache id) names l).2

end Hub

open Hub

variable {z : Limits} {id : Nat} {P : List Deed → Cache → Link → Prop} {log : List Deed} {h : Hub}

/-- **What lasts holds of every cache at every point of a course.** -/
theorem Course.lasts (hP : Lasting z id P) (hc : Course z log h) : Holds id (P log) h := by
  induction hc with
  | initial hnew =>
    intro c hc
    rw [hnew id c hc]
    exact hP.fresh _ _ _
  | quiet _ hq ih => exact ih.of_beside (hP.stable _) (by rw [hq.caches]) (hq.beside id)
  | fault f _ hcall ih => exact fun c hid => hP.fault f hcall (ih c hid)
  | keep kept _ ih =>
    intro c hid
    refine ih c ?_
    simp only [keepCaches, ExtTreeMap.getElem?_filter', Option.filter_eq_some_iff] at hid
    exact hid.1
  | write hc hw ih => exact hP.write hc hw ih
  | register hc hid hphase ih =>
    refine ih.changeCache (hP.stable _) (fun hne c l => ?_) ?_
    · exact Link.beside_watchChildren (fun heq => hne (by cases heq; rfl)) l c.parent
    · rintro rfl c - hp
      exact hP.register hp
  | giveUp hc hlist ih =>
    refine ih.changeCache (hP.stable _) (fun _ _ l => .refl _ l) ?_
    rintro rfl c - hp
    exact hP.giveUp hp
  | settle hc₀ hlist hd hc ih₀ ih =>
    refine ih.changeCache (hP.stable _) (fun hne c l => ?_) ?_
    · exact Cache.beside_track (fun heq => hne (by cases heq; rfl)) _ c l
    · rintro rfl c hid hp
      exact hP.settle (hd.listing hlist c hid).2 (fun n hn => (Store.mem_children.mp hn).1) hp

theorem Deed.of_eq_nil {w : Write} {result : Except WriteError Bool} {caches : ExtTreeMap Nat Cache}
    (h : WriteError.tookEffect result = false) : Deed.of w result caches = [] := by
  rw [Deed.of, h]
  rfl

/-- A write that had something to do is a deed, even if its delivery was broken off. -/
theorem Deed.of_delivered (w : Write) (broken : Option String) (caches : ExtTreeMap Nat Cache) :
    Deed.of w (delivered true broken) caches = [⟨w, caches⟩] := by
  cases broken <;> rfl

theorem Deed.eq_of_mem_of {w : Write} {result : Except WriteError Bool}
    {caches : ExtTreeMap Nat Cache} {d : Deed} (h : d ∈ Deed.of w result caches) :
    d = ⟨w, caches⟩ := by
  rw [Deed.of] at h
  split at h
  · exact List.mem_singleton.mp h
  · cases h

/-- What lasts, and speaks of the cache alone, holds also of the caches after each deed. -/
theorem Course.lasts_deeds {Q : Cache → Prop} (hQ : Lasting z id fun _ c _ => Q c)
    (hc : Course z log h) : ∀ d ∈ log, ∀ c, d.caches[id]? = some c → Q c := by
  induction hc with
  | initial _ => exact fun d hd => absurd hd List.not_mem_nil
  | quiet _ _ ih => exact ih
  | fault _ _ _ ih => exact ih
  | keep _ _ ih => exact ih
  | write hc hw ih =>
    intro d hd c hid
    obtain hd | hd := List.mem_append.mp hd
    · exact ih d hd c hid
    · obtain rfl := Deed.eq_of_mem_of hd
      exact (hc.write hw).lasts hQ c hid
  | register _ _ _ ih => exact ih
  | giveUp _ _ ih => exact ih
  | settle _ _ _ _ _ ih => exact ih

/-- **What the log tells of the records, if every write keeps it so, is so at every point.** -/
theorem Course.records {P : List Deed → ExtTreeMap String Record → Prop} (hnew : P [] ∅)
    (hwrite : ∀ {log : List Deed} {h : Hub} (w : Write), P log h.store.nodes →
      P (log ++ Deed.of w (h.write w).1 (h.write w).2.caches) (h.write w).2.store.nodes)
    (hc : Course z log h) : P log h.store.nodes := by
  induction hc with
  | initial _ => exact hnew
  | quiet _ hq ih => rwa [(hq.beside 0).nodes]
  | fault _ _ _ ih => exact ih
  | keep _ _ ih => exact ih
  | write _ _ ih => exact hwrite _ ih
  | register _ _ _ ih => rwa [Hub.register, changeCache_nodes _ fun _ _ => rfl]
  | giveUp _ _ ih => rwa [enter, changeCache_nodes _ fun _ _ => rfl]
  | settle _ _ _ _ _ ih =>
    rw [Hub.settle, changeCache_nodes _ fun c l => ?_]
    · exact ih
    · exact (Cache.beside_track (w := .recorder "") (v := .cache _) (by simp) _ c l).nodes

end Gatekeeper
