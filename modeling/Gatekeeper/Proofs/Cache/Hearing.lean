import Gatekeeper.Proofs.Cache.Reads
import Gatekeeper.Proofs.Cache.Upkeep
import Gatekeeper.Proofs.Store.Separator

/-!
# Proofs/Cache/Hearing — what one write makes of a cache, however its parent's path is written

A cache that watches nothing but children, and holds of those that it watches what their records
stand for (`Cache.Current`), is taken by a genuine write to one of the same kind, which watches the
children that it has noticed (`Cache.Current.exists_hears`).  If the write tells of the path that
the cache is registered under these are all, and else what remains of those that it watched
(`Store.tells`).  Of each it holds what the record stands for, or else what it held before.
-/

namespace Gatekeeper

open Std (ExtTreeMap)
open Hub

/-! ## Which names come to be watched -/

/-- A cache watches no more than before it was told of an event, and the children that it was told
of. -/
theorem Cache.mem_watched_of_receive {w : Watcher} {e : Event} {c : Cache} {l : Link} {n : String}
    (hn : n ∈ (c.receive w e l).1.watched) :
    n ∈ c.watched ∨ ∃ names, e = .children c.parent names ∧ n ∈ names := by
  cases e with
  | children path names =>
    rw [receive] at hn
    split at hn
    · next hpath =>
      exact (mem_watched_track.mp hn).symm.imp_right fun hn => ⟨names, by rw [hpath], hn⟩
    · exact .inl hn
  | changed path r =>
    rw [receive] at hn
    split at hn
    · exact .inl (accept_watched c path r ▸ hn)
    · exact .inl hn
  | deleted path =>
    rw [receive, forget_watched] at hn
    exact .inl (Std.ExtTreeSet.mem_of_mem_erase hn)

namespace Hub

variable {id : Nat} {parent : String} {h : Hub}

/-- The cache stands at this parent, and all that it watches has the property. -/
def WatchesAtMost (parent : String) (Q : String → Prop) (c : Cache) (_ : Link) : Prop :=
  c.parent = parent ∧ ∀ n ∈ c.watched, Q n

/-- A round of telling adds to what is watched what it tells of. -/
theorem Holds.watchesAtMost_tellAll {Q : String → Prop} {e : Event}
    (hQ : Holds id (WatchesAtMost parent Q) h) (ws : List Watcher) :
    Holds id (WatchesAtMost parent fun n => Q n ∨ ∃ names, e = .children parent names ∧ n ∈ names)
      (Hub.tellAll e ws h).1 := by
  refine Holds.tellAll (fun _ _ _ _ hc => hc) ?_ ws
    (hQ.imp fun _ _ hc => ⟨hc.1, fun n hn => .inl (hc.2 n hn)⟩)
  rintro c l ⟨rfl, hc⟩
  exact ⟨(Cache.akin_receive _ e c l).parent_eq, fun n hn =>
    (Cache.mem_watched_of_receive hn).elim (hc n) .inr⟩

/-- **A delivery adds to what is watched what its events tell of.** -/
theorem Holds.watchesAtMost_deliver : ∀ {es : List Event} {Q : String → Prop} {h : Hub},
    Holds id (WatchesAtMost parent Q) h → Holds id (WatchesAtMost parent fun n =>
      Q n ∨ ∃ names, .children parent names ∈ es ∧ n ∈ names) (Hub.deliver es h).1
  | [], _, _, hQ => hQ.imp fun _ _ hc => ⟨hc.1, fun n hn => .inl (hc.2 n hn)⟩
  | e :: es, Q, h, hQ => by
    have hround := hQ.watchesAtMost_tellAll (e := e) (h.store.watchersOf e)
    rw [deliver_cons]
    split
    · refine hround.watchesAtMost_deliver.imp fun c l hc => ⟨hc.1, fun n hn => ?_⟩
      obtain (hq | ⟨names, rfl, hn⟩) | ⟨names, hmem, hn⟩ := hc.2 n hn
      · exact .inl hq
      · exact .inr ⟨names, List.mem_cons_self, hn⟩
      · exact .inr ⟨names, List.mem_cons_of_mem _ hmem, hn⟩
    · refine hround.imp fun c l hc => ⟨hc.1, fun n hn => (hc.2 n hn).imp_right ?_⟩
      rintro ⟨names, rfl, hn⟩
      exact ⟨names, List.mem_cons_self, hn⟩

end Hub

section Watched

variable {id : Nat} {E : Expectation} {h : Hub} {c : Cache}

/-- **What is watched once a record has been written**: what was watched, and if the node is a new
one whose parent the cache is registered for, all its siblings. -/
theorem watched_put_iff (hu : h.Unarmed) (hid : h.caches[id]? = some c)
    (hf : Follows id c.parent c.vault (· ∈ c.watched) E c h.link)
    (hphase : c.phase ≠ .uninitialized) (path : String) (r : Record) :
    Holds id (fun c' _ => ∀ n, n ∈ c'.watched ↔ n ∈ c.watched ∨ path ∉ h.store.nodes ∧
        Path.parent? path = some c.parent ∧ n ∈ (h.store.put path r).children c.parent)
      (deliver (h.store.putEvents path r) { h with link.store := h.store.put path r }).1 := by
  have hatmost : Holds id (WatchesAtMost c.parent (· ∈ c.watched))
      { h with link.store := h.store.put path r } := holds_of_some hid ⟨rfl, fun _ hn => hn⟩
  intro c' hc' n
  constructor
  · intro hn
    refine ((hatmost.watchesAtMost_deliver c' hc').2 n hn).imp_right ?_
    rintro ⟨names, hmem, hn⟩
    obtain hmem | hmem := List.mem_append.mp hmem
    · split at hmem
      · cases hmem
      · next hout =>
        obtain ⟨q, hq, heq⟩ := Store.mem_siblingEvent.mp hmem
        cases heq
        exact ⟨hout, hq, hn⟩
    · cases List.mem_singleton.mp hmem
  · intro hn
    refine watched_put hu hid hf path r c' hc' n (hn.imp_right ?_)
    rintro ⟨hout, hparent, hn⟩
    exact ⟨hout, hparent, hf.attached hphase, hn⟩

/-- **What is watched once a node has been deleted**: what was watched but for the node, and if it
is one whose parent the cache is registered for, all its siblings. -/
theorem watched_delete_iff (hu : h.Unarmed) (hid : h.caches[id]? = some c)
    (hf : Follows id c.parent c.vault (· ∈ c.watched) E c h.link)
    (hphase : c.phase ≠ .uninitialized) (path : String) :
    Holds id (fun c' _ => ∀ n, n ∈ c'.watched ↔ n ∈ c.watched ∧ path ≠ Path.child c.parent n ∨
        Path.parent? path = some c.parent ∧ n ∈ (h.store.delete path).children c.parent)
      (deliver (h.store.deleteEvents path)
        { h with link.store := h.store.delete path }).1 := by
  let h₀ : Hub := { h with link.store := h.store.delete path }
  have hu₀ : h₀.Unarmed := hu
  have hf' : Follows id c.parent c.vault (· ∈ c.watched) (fun _ _ => True) c h.link :=
    hf.mono (fun _ hn => hn) fun _ _ _ _ => trivial
  have hk := hf'.delete (F := fun _ _ => True) hu hid path
    ⟨fun _ _ _ => trivial, fun _ _ _ => trivial⟩ fun _ _ _ _ => trivial
  -- the first event takes the node out, and adds nothing
  have hself : Holds id (WatchesAtMost c.parent (· ∈ c.watched)) h₀ :=
    holds_of_some hid ⟨rfl, fun _ hn => hn⟩
  have hk₀ : Holds id (Keeps id c.parent c.vault (fun _ => False) (fun _ _ => True)
      (fun _ => False) fun _ _ => True) h₀ :=
    holds_of_some hid ⟨{ hf' with watching := fun _ hn => hn.elim }, fun _ _ _ => trivial,
      fun _ _ _ => trivial⟩
  have hout : Holds id (fun c' _ => ∀ n, path = Path.child c.parent n → n ∉ c'.watched)
      (tellAll (.deleted path) (h₀.store.watchersOf (.deleted path)) h₀).1 :=
    (keeps_deleted hu₀ (fun _ _ hn => hn) hk₀).imp fun _ _ hk => hk.2
  have hatmost : Holds id (WatchesAtMost c.parent fun n =>
      n ∈ c.watched ∧ path ≠ Path.child c.parent n)
      (tellAll (.deleted path) (h₀.store.watchersOf (.deleted path)) h₀).1 := by
    intro c' hc'
    obtain ⟨hparent, hin⟩ :=
      hself.watchesAtMost_tellAll (h₀.store.watchersOf (.deleted path)) c' hc'
    refine ⟨hparent, fun n hn => ⟨(hin n hn).resolve_right ?_, fun hp => hout c' hc' n hp hn⟩⟩
    rintro ⟨names, heq, -⟩
    cases heq
  intro c' hc' n
  constructor
  · rw [Store.deleteEvents, hu₀.deliver_cons] at hc'
    intro hn
    refine ((hatmost.watchesAtMost_deliver c' hc').2 n hn).imp_right ?_
    rintro ⟨names, hmem, hn⟩
    obtain ⟨q, hq, heq⟩ := Store.mem_siblingEvent.mp hmem
    cases heq
    exact ⟨hq, hn⟩
  · intro hn
    refine (hk c' hc').1.watching n (hn.imp_right ?_)
    rintro ⟨hparent, hn⟩
    exact ⟨hparent, hf.attached hphase, hn⟩

end Watched

/-! ## One write -/

/-- A write leads to the records that the store would have after it. -/
theorem Hub.nodes_write_after (w : Write) (h : Hub) :
    (h.write w).2.store.nodes = (h.store.after w).nodes := by
  obtain ⟨e, herr, he⟩ | ⟨effect, heff, he⟩ := write_cases w h
  · rw [he, Store.after_of_error herr]
  · rw [he, (kept_deliver _ _).nodes, Store.after_of_effect heff]

/-- A node that was deleted was there. -/
theorem Hub.mem_of_removed {path : String} {h : Hub}
    (hdone : (h.write (.remove path)).1 = .ok true) : path ∈ h.store.nodes := by
  by_contra hout
  rw [write, Store.effect, if_neg hout] at hdone
  cases hdone

/-- What a cache holds under a name once it has looked at the record there is: what that stands for,
or else what it held before. -/
def Cache.refreshed (c : Cache) (s : Store) (name : String) : Option Credential :=
  (s.nodes[Path.child c.parent name]?.bind (c.vault.credentialAt name)).or (c.get? ⟨name⟩)

/-- **A cache is current**: it watches nothing but children, and looking at their records again would
not change what it holds of them. -/
structure Cache.Current (c : Cache) (s : Store) : Prop where
  children : ∀ n ∈ c.watched, n ∈ s.children c.parent
  shown : ∀ n ∈ c.watched, c.get? ⟨n⟩ = c.refreshed s n

/-- **What a cache hears of a write**: it then watches, of the children there are, all if it is told
of them, and else those that it watched; and it has looked at their records. -/
structure Cache.Hears (s : Store) (w : Write) (c c' : Cache) : Prop where
  akin : c.Akin c'
  watched_iff : ∀ n, n ∈ c'.watched ↔
    n ∈ (s.after w).children c.parent ∧ (n ∈ c.watched ∨ s.tells c.parent w = true)
  shown : ∀ n ∈ c'.watched, c'.get? ⟨n⟩ = c.refreshed (s.after w) n

section Write

variable {id : Nat} {E : Expectation} {h : Hub} {c c' : Cache} {s t : Store} {w : Write}

theorem Cache.refreshed_of_nodes {name : String}
    (h : s.nodes[Path.child c.parent name]? = t.nodes[Path.child c.parent name]?) :
    c.refreshed s name = c.refreshed t name := by
  rw [refreshed, refreshed, h]

theorem Cache.refreshed_congr (c : Cache) (h : s.nodes = t.nodes) (name : String) :
    c.refreshed s name = c.refreshed t name :=
  refreshed_of_nodes (by rw [h])

theorem Cache.Current.of_nodes (hcur : c.Current s) (h : t.nodes = s.nodes) : c.Current t where
  children n hn := by
    rw [Store.children_congr h]
    exact hcur.children n hn
  shown n hn := by
    rw [refreshed_congr c h]
    exact hcur.shown n hn

/-- A cache is current after what it hears. -/
theorem Cache.Hears.current (hears : c.Hears s w c') : c'.Current (s.after w) where
  children n hn := by
    rw [hears.akin.parent_eq]
    exact ((hears.watched_iff n).mp hn).1
  shown n hn := by
    rw [refreshed, hears.akin.parent_eq, hears.akin.vault_eq, hears.shown n hn, refreshed,
      ← Option.or_assoc, Option.or_self]

/-- A cache that is current has looked at the records when one has been written. -/
theorem Cache.Current.put (hcur : c.Current h.store) (hu : h.Unarmed)
    (hreads : ∀ f, (Call.get, f) ∉ h.link.faults) (hid : h.caches[id]? = some c)
    (hf : Follows id c.parent c.vault (· ∈ c.watched) E c h.link) (path : String) (r : Record) :
    Holds id (fun c' _ => ∀ n ∈ c'.watched, c'.get? ⟨n⟩ = c.refreshed (h.store.put path r) n)
      (deliver (h.store.putEvents path r) { h with link.store := h.store.put path r }).1 := by
  have hf' : Follows id c.parent c.vault (· ∈ c.watched) (fun n x => x = c.refreshed h.store n) c
      h.link := { hf with expected := hcur.shown }
  have hself : ∀ n, path = Path.child c.parent n → c.refreshed (h.store.put path r) n
      = (c.vault.credentialAt n r).or (c.get? ⟨n⟩) := by
    rintro n rfl
    simp [Cache.refreshed, Store.put]
  have hk := hf'.put (F := fun n x => x = c.refreshed (h.store.put path r) n) hu hid path r
    ⟨fun n _ hout => ?fresh, fun f hf => absurd hf (hreads f)⟩ ?hold ?hnew ?hother
  case fresh => rw [refreshed, hf.absent n hout, Option.or_none]
  case hold =>
    rintro n x hp hn rfl
    rw [hself n hp, ← hcur.shown n hn]
  case hnew =>
    rintro n x hp rfl
    rw [hself n hp, ← Option.or_assoc, Option.or_self]
  case hother =>
    rintro n x hne rfl
    exact refreshed_of_nodes (by simp [Store.put, ExtTreeMap.getElem?_insert, hne])
  exact hk.imp fun _ _ hk => hk.1.expected

/-- A cache that is current has looked at the records of the others when a node has been deleted. -/
theorem Cache.Current.delete (hcur : c.Current h.store) (hu : h.Unarmed)
    (hreads : ∀ f, (Call.get, f) ∉ h.link.faults) (hid : h.caches[id]? = some c)
    (hf : Follows id c.parent c.vault (· ∈ c.watched) E c h.link) (path : String) :
    Holds id (fun c' _ => ∀ n ∈ c'.watched, path ≠ Path.child c.parent n →
        c'.get? ⟨n⟩ = c.refreshed (h.store.delete path) n)
      (deliver (h.store.deleteEvents path)
        { h with link.store := h.store.delete path }).1 := by
  have hf' : Follows id c.parent c.vault (· ∈ c.watched) (fun n x => x = c.refreshed h.store n) c
      h.link := { hf with expected := hcur.shown }
  have hk := hf'.delete (F := fun n x => path ≠ Path.child c.parent n →
    x = c.refreshed (h.store.delete path) n) hu hid path
    ⟨fun n _ hout hne => ?fresh, fun f hf => absurd hf (hreads f)⟩ ?hother
  case fresh =>
    have hnone : c.get? ⟨n⟩ = none := hf.absent n fun hn => hout ⟨hn, hne⟩
    rw [refreshed, hnone, Option.or_none]
  case hother =>
    rintro n x hne rfl -
    exact refreshed_of_nodes (by simp [Store.delete, ExtTreeMap.getElem?_erase, hne])
  exact hk.imp fun _ _ hk => hk.1.expected

/-- What a cache that is current hears when a record is written. -/
theorem Cache.Current.hears_put (hcur : c.Current h.store) (hu : h.Unarmed)
    (hreads : ∀ f, (Call.get, f) ∉ h.link.faults) (hid : h.caches[id]? = some c)
    (hf : Follows id c.parent c.vault (· ∈ c.watched) E c h.link)
    (hphase : c.phase ≠ .uninitialized) {path : String} {r : Record}
    (hw : w = .create path r ∨ w = .set path r)
    (hafter : (h.store.put path r).nodes = (h.store.after w).nodes)
    (hid' : (deliver (h.store.putEvents path r)
      { h with link.store := h.store.put path r }).1.caches[id]? = some c') (hakin : c.Akin c') :
    c.Hears h.store w c' := by
  have hpath : w.path? = some path := by obtain rfl | rfl := hw <;> rfl
  have htells : h.store.tells c.parent w = true ↔
      path ∉ h.store.nodes ∧ Path.parent? path = some c.parent := by
    rw [Store.tells_eq_true_iff, hpath, ← hafter]
    simp [Store.put, and_comm]
  have hkept : ∀ n ∈ c.watched, n ∈ (h.store.put path r).children c.parent := fun n hn =>
    Store.mem_children.mpr ⟨hf.segment n hn, ExtTreeMap.mem_insert.mpr
      (.inr (Store.mem_children.mp (hcur.children n hn)).2)⟩
  refine ⟨hakin, fun n => ?_, fun n hn => ?_⟩
  · rw [watched_put_iff hu hid hf hphase path r c' hid' n, htells, ← Store.children_congr hafter]
    constructor
    · rintro (hn | ⟨hout, hparent, hn⟩)
      · exact ⟨hkept n hn, .inl hn⟩
      · exact ⟨hn, .inr ⟨hout, hparent⟩⟩
    · rintro ⟨hn, hn' | ⟨hout, hparent⟩⟩
      · exact .inl hn'
      · exact .inr ⟨hout, hparent, hn⟩
  · rw [← refreshed_congr c hafter]
    exact hcur.put hu hreads hid hf path r c' hid' n hn

/-- What a cache that is current hears when a node is deleted. -/
theorem Cache.Current.hears_delete (hcur : c.Current h.store) (hu : h.Unarmed)
    (hreads : ∀ f, (Call.get, f) ∉ h.link.faults) (hid : h.caches[id]? = some c)
    (hf : Follows id c.parent c.vault (· ∈ c.watched) E c h.link)
    (hphase : c.phase ≠ .uninitialized) {path : String} (hin : path ∈ h.store.nodes)
    (hafter : (h.store.delete path).nodes = (h.store.after (.remove path)).nodes)
    (hid' : (deliver (h.store.deleteEvents path)
      { h with link.store := h.store.delete path }).1.caches[id]? = some c') (hakin : c.Akin c') :
    c.Hears h.store (.remove path) c' := by
  have htells : h.store.tells c.parent (.remove path) = true ↔
      Path.parent? path = some c.parent := by
    rw [Store.tells_eq_true_iff, ← hafter]
    simp [Write.path?, Store.delete, hin]
  have hmem : ∀ n, n ∈ (h.store.delete path).children c.parent ↔
      n ∈ h.store.children c.parent ∧ path ≠ Path.child c.parent n := fun n => by
    rw [Store.mem_children, Store.mem_children, and_assoc]
    simp [Store.delete, and_comm]
  have hwatched : ∀ n, n ∈ c'.watched ↔ n ∈ (h.store.delete path).children c.parent ∧
      (n ∈ c.watched ∨ Path.parent? path = some c.parent) := by
    intro n
    rw [watched_delete_iff hu hid hf hphase path c' hid' n]
    constructor
    · rintro (⟨hn, hne⟩ | ⟨hparent, hn⟩)
      · exact ⟨(hmem n).mpr ⟨hcur.children n hn, hne⟩, .inl hn⟩
      · exact ⟨hn, .inr hparent⟩
    · rintro ⟨hn, hn' | hparent⟩
      · exact .inl ⟨hn', ((hmem n).mp hn).2⟩
      · exact .inr ⟨hparent, hn⟩
  refine ⟨hakin, fun n => ?_, fun n hn => ?_⟩
  · rw [hwatched, htells, ← Store.children_congr hafter]
  · rw [← refreshed_congr c hafter]
    exact hcur.delete hu hreads hid hf path c' hid' n hn ((hmem n).mp ((hwatched n).mp hn).1).2

/-- A cache that is current hears nothing where there is nothing to do. -/
theorem Cache.Current.hears_nothing (hcur : c.Current s) (hafter : s.nodes = (s.after w).nodes) :
    c.Hears s w c := by
  have hsilent : ¬s.tells c.parent w = true := by
    rw [Store.tells_eq_true_iff, ← hafter]
    rintro ⟨path, -, -, hno⟩
    exact hno .rfl
  refine ⟨.refl c, fun n => ?_, fun n hn => ?_⟩
  · rw [← Store.children_congr hafter, or_iff_left hsilent]
    exact (and_iff_right_of_imp (hcur.children n)).symm
  · rw [← refreshed_congr c hafter]
    exact hcur.shown n hn

/-- **A cache that is current hears of every genuine write** what is told under its parent's path, as
that is written. -/
theorem Cache.Current.exists_hears (hcur : c.Current h.store) (hu : h.Unarmed)
    (hreads : ∀ f, (Call.get, f) ∉ h.link.faults) (hid : h.caches[id]? = some c)
    (hf : Follows id c.parent c.vault (· ∈ c.watched) E c h.link)
    (hphase : c.phase ≠ .uninitialized) (hw : w.IsGenuine) :
    ∃ c', (h.write w).2.caches[id]? = some c' ∧ c.Hears h.store w c' := by
  obtain ⟨c', hid', hakin⟩ := exists_akin_write hid w
  have hafter := nodes_write_after w h
  refine ⟨c', hid', ?_⟩
  obtain ⟨path, r, hput, he⟩ | ⟨path, rfl, he⟩ | ⟨-, he⟩ := genuine_cases hu hw
  · rw [he] at hid' hafter
    rw [(kept_deliver _ _).nodes] at hafter
    exact hcur.hears_put hu hreads hid hf hphase hput hafter hid' hakin
  · have hin : path ∈ h.store.nodes := mem_of_removed (congrArg Prod.fst he)
    rw [he] at hid' hafter
    rw [(kept_deliver _ _).nodes] at hafter
    exact hcur.hears_delete hu hreads hid hf hphase hin hafter hid' hakin
  · rw [he] at hid' hafter
    obtain rfl : c = c' := Option.some.inj (hid.symm.trans hid')
    exact hcur.hears_nothing hafter

end Write

end Gatekeeper
