import Gatekeeper.Proofs.Cache.Reads
import Gatekeeper.Proofs.Hub.Account
import Gatekeeper.Proofs.Hub.Lasting

/-!
# Proofs/Cache/Unread — children whose records could not be read

A cache loads a child once, when it begins to watch it.  If the read fails then, the cache watches a
child of which it holds nothing, and to be told of the parent's children again does not make it read
again: it loads only the children that it does not watch yet.

`Course.loaded` says so exactly.  Once the children of its parent have been told of while reads
succeed, a cache that is registered for them holds of each child what the record there stands for,
unless it watched the child before and it is another node that was written; of those it holds what it
held.  So a read that fails may hide a credential until it is written again (`not_loaded`).

`Abreast` is what holds of the cache in the meantime.  The telling of the children takes it from
`Untold` to `Listed`, and that of the record which was written from there to `Loaded`.
-/

namespace Gatekeeper

open Std (ExtTreeMap)
open Hub

/-! ## Writes that tell of children -/

/-- **A write that brings a child about or takes one away** puts a record where there was none, or
deletes a node. -/
theorem Store.effect_of_turns {s : Store} {parent : String} {w : Write}
    (h : s.turns parent w = true) :
    ∃ name, Path.IsSegment name ∧ w.path? = some (Path.child parent name) ∧
      ((Path.child parent name ∉ s.nodes ∧ ∃ r, s.effect w =
          .ok ⟨s.put (Path.child parent name) r, s.putEvents (Path.child parent name) r, true⟩) ∨
        s.effect w =
          .ok ⟨s.delete (Path.child parent name), s.deleteEvents (Path.child parent name), true⟩) := by
  rw [turns, Option.any_eq_true] at h
  obtain ⟨path, hpath, h⟩ := h
  simp only [Bool.and_eq_true, bne_iff_ne, ne_eq, decide_eq_decide, Option.isSome_iff_exists,
    Path.childName?_eq_some_iff] at h
  obtain ⟨⟨name, hseg, hname⟩, h⟩ := h
  refine ⟨name, hseg, hname ▸ hpath, ?_⟩
  rw [← hname]
  by_cases hin : path ∈ s.nodes
  · cases w with
    | remove q =>
      cases hpath
      exact .inr (by simp [effect, deleteEvents, hin])
    | create q r | set q r =>
      cases hpath
      simp [after, effect, put, hin] at h
    | notify e => cases hpath
  · cases w with
    | create q r | set q r =>
      cases hpath
      exact .inl ⟨hin, r, by simp [effect, putEvents, hin]⟩
    | remove q =>
      cases hpath
      simp [after, effect, hin] at h
    | notify e => cases hpath

/-! ## Registrations for what is watched -/

/-- The cache is registered for the record of each child that it watches. -/
def Attends (id : Nat) (c : Cache) (l : Link) : Prop :=
  ∀ n ∈ c.watched, Path.IsSegment n →
    (Path.child c.parent n, .cache id) ∈ l.store.dataWatches.entries

section Attends

variable {id : Nat} {c : Cache} {l l' : Link}

theorem Attends.of_beside (h : Attends id c l) (hl : l.Beside (.cache id) l') : Attends id c l' :=
  fun n hn hseg => hl.mem_dataWatches.mpr (h n hn hseg)

theorem Attends.trackChild (h : Attends id c l) (name : String) :
    Attends id (Cache.trackChild (.cache id) name c l).1
      (Cache.trackChild (.cache id) name c l).2 := by
  intro n hn hseg
  rw [(Cache.akin_trackChild (.cache id) name c l).parent_eq]
  rw [Cache.mem_watched_trackChild] at hn
  rw [Cache.trackChild]
  split
  · next hin =>
    obtain rfl | hn := hn
    · exact h n hin hseg
    · exact h n hn hseg
  · rw [load_store, Link.watchData, Watches.mem_entries_add]
    obtain rfl | hn := hn
    · exact .inr rfl
    · exact .inl (h n hn hseg)

theorem Attends.track : ∀ (names : List String) {c : Cache} {l : Link}, Attends id c l →
    Attends id (Cache.track (.cache id) names c l).1 (Cache.track (.cache id) names c l).2
  | [], _, _, h => h
  | name :: names, _, _, h => Attends.track names (h.trackChild name)

/-- Whatever a cache is told of, it remains registered for what it watches. -/
theorem Attends.receive (h : Attends id c l) (e : Event) :
    Attends id (c.receive (.cache id) e l).1 (c.receive (.cache id) e l).2 := by
  cases e with
  | children path names =>
    rw [Cache.receive]
    split
    · exact h.track names
    · exact h
  | changed path r =>
    intro n hn hseg
    rw [(Cache.akin_receive (.cache id) (.changed path r) c l).parent_eq]
    refine h n ?_ hseg
    rw [Cache.receive] at hn
    split at hn
    · rwa [Cache.accept_watched] at hn
    · exact hn
  | deleted path =>
    intro n hn hseg
    rw [(Cache.akin_receive (.cache id) (.deleted path) c l).parent_eq]
    rw [Cache.receive, Cache.forget_watched, Std.ExtTreeSet.mem_erase, ne_eq,
      Std.compare_eq_iff_eq] at hn
    rw [Cache.receive, Link.unwatchData, Watches.mem_entries_drop]
    refine ⟨h n hn.2 hseg, fun heq => hn.1 ?_⟩
    obtain rfl : Path.child c.parent n = path := (Prod.ext_iff.mp heq).1
    exact Path.lastSegment_child c.parent hseg

theorem lasting_attends (z : Limits) (id : Nat) : Lasting z id fun _ => Attends id where
  stable _ _ _ _ hl h := h.of_beside hl
  fresh parent vault order := fun n hn => by simp [Cache.fresh] at hn
  fault _ _ h := h
  write {_ _ w} _ _ ih :=
    ih.write_of_leads (fun _ _ _ hl h => h.of_beside hl) (fun e _ _ h => h.receive e)
      (fun _ _ _ h => h) w
  register h := h
  giveUp h := h
  settle {_ _ _ names} _ _ h := h.track names

end Attends

/-! ## A cache that is told of a write -/

/-- What a cache shows of a child whose record stands for a credential, once a child has been written
or deleted: what it held, if it watched the child and it is another one that was written, and
otherwise that credential. -/
def Cache.reloaded (c : Cache) (written name : String) (x : Credential) : Option Credential :=
  if name ∈ c.watched ∧ name ≠ written then c.get? ⟨name⟩ else some x

/-- What holds of a cache while it is told of a write: nothing of it has changed but what it holds and
watches, reads do not fail, and it is registered for all that it is to be told of.  Of each child
whose record stands for a credential, `V` is the case. -/
structure Abreast (id : Nat) (c₀ : Cache) (nodes : ExtTreeMap String Record)
    (V : Cache → String → Credential → Prop) (c : Cache) (l : Link) : Prop where
  akin : c₀.Akin c
  nodes_eq : l.store.nodes = nodes
  reads : ∀ f, (Call.get, f) ∉ l.faults
  attached : (c₀.parent, .cache id) ∈ l.store.childWatches.entries
  attends : Attends id c l
  shows : ∀ n x, Path.IsSegment n →
    nodes[Path.child c₀.parent n]?.bind (c₀.vault.credentialAt n) = some x → V c n x

/-- The cache has not been told of the children: it watches what it watched. -/
def Untold (c₀ : Cache) (written : String) (c : Cache) (n : String) (x : Credential) : Prop :=
  (n ∈ c₀.watched → n ∈ c.watched) ∧
    (n ∈ c.watched → n ≠ written → c.get? ⟨n⟩ = c₀.reloaded written n x)

/-- The cache has been told of the children: it watches them all. -/
def Listed (c₀ : Cache) (written : String) (c : Cache) (n : String) (x : Credential) : Prop :=
  n ∈ c.watched ∧ (n ≠ written → c.get? ⟨n⟩ = c₀.reloaded written n x)

/-- The cache has been told of the record that was written, too. -/
def Loaded (c₀ : Cache) (written : String) (c : Cache) (n : String) (x : Credential) : Prop :=
  n ∈ c.watched ∧ c.get? ⟨n⟩ = c₀.reloaded written n x

section Abreast

variable {id : Nat} {c₀ c : Cache} {nodes : ExtTreeMap String Record} {l : Link} {written : String}
  {V W : Cache → String → Credential → Prop} {h : Hub}

theorem stable_abreast : Stable id (Abreast id c₀ nodes V) := fun _ _ _ hl hk =>
  ⟨hk.akin, hl.nodes.trans hk.nodes_eq, fun f hf => hk.reads f (hl.faults hf),
    hl.mem_childWatches.mpr hk.attached, hk.attends.of_beside hl, hk.shows⟩

theorem Abreast.imp (hk : Abreast id c₀ nodes V c l) (hVW : ∀ n x, V c n x → W c n x) :
    Abreast id c₀ nodes W c l :=
  { hk with shows := fun n x hseg hx => hVW n x (hk.shows n x hseg hx) }

/-- To be told of anything changes no more than what is the case of the children. -/
theorem Abreast.receive (hk : Abreast id c₀ nodes V c l) (e : Event)
    (hW : ∀ n x, Path.IsSegment n →
      nodes[Path.child c₀.parent n]?.bind (c₀.vault.credentialAt n) = some x →
        W (c.receive (.cache id) e l).1 n x) :
    Abreast id c₀ nodes W (c.receive (.cache id) e l).1 (c.receive (.cache id) e l).2 where
  akin := hk.akin.trans (Cache.akin_receive _ e c l)
  nodes_eq := (Cache.beside_receive (w := .recorder "") (by simp) e c l).nodes.trans hk.nodes_eq
  reads f hf := hk.reads f ((Cache.beside_receive (w := .recorder "") (by simp) e c l).faults hf)
  attached := by
    rw [Cache.childWatches_receive]
    exact hk.attached
  attends := hk.attends.receive e
  shows := hW

/-- A cache as it is right after a write. -/
theorem abreast_untold (hid : h.caches[id]? = some c) (hattends : Attends id c h.link)
    (hreg : .cache id ∈ h.store.childWatches.forPath c.parent)
    (hreads : ∀ f, (Call.get, f) ∉ h.link.faults) (nodes : ExtTreeMap String Record)
    (written : String) :
    Holds id (Abreast id c nodes (Untold c written)) { h with link.store.nodes := nodes } := by
  intro c' hid'
  obtain rfl : c = c' := Option.some.inj (hid.symm.trans hid')
  refine ⟨.refl c, rfl, hreads, Watches.mem_forPath.mp hreg, hattends, fun n x _ _ => ?_⟩
  exact ⟨fun hn => hn, fun hn hne => (if_pos ⟨hn, hne⟩).symm⟩

/-- **Once it has been told of the children, the cache watches them all**, and has loaded those that
it did not watch. -/
theorem abreast_listed {s : Store} (hs : s.nodes = nodes)
    (hnone : (tellAll (.children c₀.parent (s.children c₀.parent))
      (h.store.watchersOf (.children c₀.parent (s.children c₀.parent))) h).2 = none)
    (hk : Holds id (Abreast id c₀ nodes (Untold c₀ written)) h) :
    Holds id (Abreast id c₀ nodes (Listed c₀ written))
      (tellAll (.children c₀.parent (s.children c₀.parent))
        (h.store.watchersOf (.children c₀.parent (s.children c₀.parent))) h).1 := by
  refine hk.round stable_abreast stable_abreast hnone ?_ ?_ ?_
  · rintro - - - c l hk
    have hparent := hk.akin.parent_eq
    refine hk.receive _ fun n x hseg hx => ?_
    obtain ⟨hkept, hshown⟩ := hk.shows n x hseg hx
    obtain ⟨r, hr, -⟩ := Option.bind_eq_some_iff.mp hx
    have hin : n ∈ s.children c₀.parent :=
      Store.mem_children.mpr ⟨hseg, hs ▸ ExtTreeMap.mem_iff_isSome_getElem?.mpr (by simp [hr])⟩
    rw [Cache.receive, if_pos hparent.symm]
    refine ⟨Cache.mem_watched_track.mpr (.inl hin), fun hne => ?_⟩
    rw [Cache.get?_track id hk.reads fun m hm => (Store.mem_children.mp hm).1, hk.nodes_eq, hparent,
      hk.akin.vault_eq, hx]
    by_cases hwatched : n ∈ c.watched
    · rw [if_neg fun hn => hn.2 hwatched]
      exact hshown hwatched hne
    · rw [if_pos ⟨hin, hwatched⟩, Cache.reloaded, if_neg fun hn => hwatched (hkept hn.1)]
      rfl
  · exact fun c hk hmem => absurd (Watches.mem_forPath.mpr hk.attached) hmem
  · exact fun c l hk => hk.imp fun n x hx => ⟨fun _ => hx.1, fun _ => hx.2⟩

/-- **Once it has been told of the record that was written, the cache shows it.** -/
theorem abreast_loaded {r : Record} (hseg : Path.IsSegment written)
    (hr : nodes[Path.child c₀.parent written]? = some r)
    (hnone : (tellAll (.changed (Path.child c₀.parent written) r)
      (h.store.watchersOf (.changed (Path.child c₀.parent written) r)) h).2 = none)
    (hk : Holds id (Abreast id c₀ nodes (Listed c₀ written)) h) :
    Holds id (Abreast id c₀ nodes (Loaded c₀ written))
      (tellAll (.changed (Path.child c₀.parent written) r)
        (h.store.watchersOf (.changed (Path.child c₀.parent written) r)) h).1 := by
  refine hk.round stable_abreast stable_abreast hnone ?_ ?_ ?_
  · rintro - - - c l hk
    refine hk.receive _ fun n x hn hx => ?_
    obtain ⟨hin, hshown⟩ := hk.shows n x hn hx
    rw [Cache.receive, Path.lastSegment_child c₀.parent hseg]
    by_cases hne : n = written
    · subst hne
      rw [if_pos hin, Loaded, Cache.accept_watched, Cache.get?_accept,
        Path.lastSegment_child c₀.parent hseg, if_pos rfl, hk.akin.vault_eq, Cache.reloaded,
        if_neg fun hn => hn.2 rfl]
      rw [hr, Option.bind_some] at hx
      exact ⟨hin, by rw [hx, Option.some_or]⟩
    · split
      · rw [Loaded, Cache.accept_watched, Cache.get?_accept, Path.lastSegment_child c₀.parent hseg,
          if_neg hne]
        exact ⟨hin, hshown hne⟩
      · exact ⟨hin, hshown hne⟩
  · refine fun c hk hmem => hk.imp fun n x hx => ⟨hx.1, hx.2 ?_⟩
    rintro rfl
    refine hmem (Watches.mem_forPath.mpr ?_)
    rw [← hk.akin.parent_eq]
    exact hk.attends n hx.1 hseg
  · exact fun c l hk => hk.imp fun n x hx => ⟨hx.1, fun _ => hx.2⟩

/-- To be told of a node that is gone is nothing to the children that there are. -/
theorem abreast_deleted (hseg : Path.IsSegment written)
    (hgone : nodes[Path.child c₀.parent written]? = none) (ws : List Watcher)
    (hk : Holds id (Abreast id c₀ nodes (Untold c₀ written)) h) :
    Holds id (Abreast id c₀ nodes (Untold c₀ written))
      (tellAll (.deleted (Path.child c₀.parent written)) ws h).1 := by
  refine hk.tellAll stable_abreast (fun c l hk => hk.receive _ fun n x hn hx => ?_) ws
  obtain ⟨hkept, hshown⟩ := hk.shows n x hn hx
  have hne : n ≠ written := by
    rintro rfl
    simp [hgone] at hx
  rw [Cache.receive, Path.lastSegment_child c₀.parent hseg, Untold, Cache.forget_watched,
    Cache.get?_forget, if_neg hne, Std.ExtTreeSet.mem_erase, ne_eq, Std.compare_eq_iff_eq]
  exact ⟨fun hin => ⟨Ne.symm hne, hkept hin⟩, fun hin => hshown hin.2⟩

/-- **A cache that is told of a new child** and of its record. -/
theorem abreast_put (hbare : Path.IsBare c₀.parent) (hseg : Path.IsSegment written)
    (hout : Path.child c₀.parent written ∉ h.store.nodes) {r : Record}
    (hnone : (deliver (h.store.putEvents (Path.child c₀.parent written) r)
      { h with link.store := h.store.put (Path.child c₀.parent written) r }).2 = none)
    (hk : Holds id
      (Abreast id c₀ (h.store.put (Path.child c₀.parent written) r).nodes (Untold c₀ written))
      { h with link.store := h.store.put (Path.child c₀.parent written) r }) :
    Holds id
      (Abreast id c₀ (h.store.put (Path.child c₀.parent written) r).nodes (Loaded c₀ written))
      (deliver (h.store.putEvents (Path.child c₀.parent written) r)
        { h with link.store := h.store.put (Path.child c₀.parent written) r }).1 := by
  rw [Store.putEvents, if_neg hout, Store.siblingEvent_child hbare hseg, List.singleton_append]
    at hnone ⊢
  obtain ⟨hlisted, hdeliver⟩ := deliver_of_none hnone
  rw [hdeliver] at hnone
  obtain ⟨hloaded, hdeliver'⟩ := deliver_of_none hnone
  rw [hdeliver, hdeliver']
  exact abreast_loaded hseg (by simp [Store.put]) hloaded (abreast_listed rfl hlisted hk)

/-- **A cache that is told that a child is gone**, and of those that are left. -/
theorem abreast_delete (hbare : Path.IsBare c₀.parent) (hseg : Path.IsSegment written)
    (hnone : (deliver (h.store.deleteEvents (Path.child c₀.parent written))
      { h with link.store := h.store.delete (Path.child c₀.parent written) }).2 = none)
    (hk : Holds id
      (Abreast id c₀ (h.store.delete (Path.child c₀.parent written)).nodes (Untold c₀ written))
      { h with link.store := h.store.delete (Path.child c₀.parent written) }) :
    Holds id
      (Abreast id c₀ (h.store.delete (Path.child c₀.parent written)).nodes (Loaded c₀ written))
      (deliver (h.store.deleteEvents (Path.child c₀.parent written))
        { h with link.store := h.store.delete (Path.child c₀.parent written) }).1 := by
  have hgone : (h.store.delete (Path.child c₀.parent written)).nodes[Path.child c₀.parent written]?
      = none := by simp [Store.delete]
  rw [Store.deleteEvents, Store.siblingEvent_child hbare hseg] at hnone ⊢
  obtain ⟨-, hdeliver⟩ := deliver_of_none hnone
  rw [hdeliver] at hnone
  obtain ⟨hlisted, hdeliver'⟩ := deliver_of_none hnone
  rw [hdeliver, hdeliver']
  refine (abreast_listed rfl hlisted (abreast_deleted hseg hgone _ hk)).imp fun c l hlast => ?_
  -- of the child that is gone there is nothing to show
  refine { hlast with shows := fun n x hn hx => ?_ }
  obtain ⟨hin, hshown⟩ := hlast.shows n x hn hx
  refine ⟨hin, hshown ?_⟩
  rintro rfl
  rw [hgone] at hx
  cases hx

end Abreast

/-- **A cache that is told of the children loads those that it does not watch**, and no other.  At
any point of a run where reads succeed, let a write bring about a child of a cache's parent, or take
one away, and let nobody break its delivery off; the cache is registered for the children, and the
parent's path is bare.  Then it holds of each child whose record stands for a credential of its name
what it held before, if it watched the child and the write was not to it, and otherwise that
credential. -/
theorem Course.loaded {z : Limits} {log : List Deed} {h : Hub} (hc : Course z log h) {id : Nat}
    {c : Cache} (hid : h.caches[id]? = some c) (hbare : Path.IsBare c.parent)
    (hreg : .cache id ∈ h.store.childWatches.forPath c.parent)
    (hreads : ∀ f, (Call.get, f) ∉ h.link.faults) {w : Write}
    (hturns : h.store.turns c.parent w = true) (hdone : (h.write w).1 = .ok true) :
    ∃ c', (h.write w).2.caches[id]? = some c' ∧
      ∀ (name : String) (r : Record) (x : Credential), Path.IsSegment name →
        (h.write w).2.store.nodes[Path.child c.parent name]? = some r →
          c.vault.credentialAt name r = some x →
            c'.get? ⟨name⟩ =
              if name ∈ c.watched ∧ w.path? ≠ some (Path.child c.parent name) then c.get? ⟨name⟩
              else some x := by
  obtain ⟨written, hseg, hpath, hcases⟩ := Store.effect_of_turns hturns
  have huntold : ∀ nodes, Holds id (Abreast id c nodes (Untold c written))
      { h with link.store.nodes := nodes } := fun nodes =>
    abreast_untold hid (hc.lasts (lasting_attends z id) c hid) hreg hreads nodes written
  suffices hshown : Holds id (Abreast id c (h.store.after w).nodes (Loaded c written))
      (h.write w).2 by
    obtain ⟨c', hid', -⟩ := exists_akin_write hid w
    refine ⟨c', hid', fun name r x hname hr hx => ?_⟩
    rw [(hshown c' hid').nodes_eq] at hr
    have hloaded := ((hshown c' hid').shows name x hname (by simp [hr, hx])).2
    have hne : w.path? ≠ some (Path.child c.parent name) ↔ name ≠ written := by
      rw [hpath, ne_eq, Option.some.injEq]
      exact not_congr ⟨fun heq => (Path.child_injective heq).symm, fun heq => heq ▸ rfl⟩
    simpa only [Cache.reloaded, hne] using hloaded
  -- whichever it is, the cache is told of all children that there are then
  obtain ⟨hout, r, heff⟩ | heff := hcases
  · obtain ⟨hnone, hwrite⟩ := write_of_ok heff hdone
    rw [hwrite, Store.after_of_effect heff]
    exact abreast_put hbare hseg hout hnone (huntold _)
  · obtain ⟨hnone, hwrite⟩ := write_of_ok heff hdone
    rw [hwrite, Store.after_of_effect heff]
    exact abreast_delete hbare hseg hnone (huntold _)

/-! ## A credential that stays hidden -/

/-- There is a record when a cache is started, and the read of it fails. -/
def unreadActs : List Act :=
  [.write (.set "/users/ann_BROKER" (recordOf "ann" "enc:wp")),
    .fault .get (.fails .poisoned), .start 0]

/-- The log and the hub after it. -/
def unreadRun : List Deed × Hub := Act.performAll unreadActs [] sampleHub

/-- What the record stands for. -/
def unread : Credential := ⟨"ann", "pw", .broker, .user, ∅, ∅⟩

/-- Then the record of someone else is written. -/
def lateWrite : Write := .create "/users/bob_BROKER" (recordOf "bob" "enc:wp")

/-- What that one stands for. -/
def late : Credential := ⟨"bob", "pw", .broker, .user, ∅, ∅⟩

theorem run_unread : Run (.genuine fun _ => True) unreadRun.1 unreadRun.2 := by
  refine Run.performAll (.initial new_sampleHub) ?_
  simp only [unreadActs, List.forall_mem_cons, List.not_mem_nil, false_imp_iff, implies_true,
    and_true]
  exact ⟨trivial, trivial, trivial⟩

/-- The cache watches the child that it could not read, and not the one that is yet to come. -/
theorem unread_cache : ∃ c, unreadRun.2.caches[0]? = some c ∧ c.parent = "/users" ∧
    c.vault = sampleVault ∧ "ann_BROKER" ∈ c.watched ∧ "bob_BROKER" ∉ c.watched ∧
      c.get? ⟨"ann_BROKER"⟩ = none := by
  have hkept : unreadRun.2.caches[0]?.map (fun c => (c.parent, c.vault))
      = some ("/users", sampleVault) := rfl
  have hstate : unreadRun.2.caches[0]?.map (fun c => (c.watched.toList, c.get? ⟨"ann_BROKER"⟩))
      = some (["ann_BROKER"], none) := by
    decide +kernel
  obtain ⟨c, hid, hc⟩ := Option.map_eq_some_iff.mp hkept
  rw [hid, Option.map_some, Option.some.injEq, Prod.mk.injEq] at hstate
  have hwatched : ∀ n, n ∈ c.watched ↔ n = "ann_BROKER" := fun n => by
    rw [← Std.ExtTreeSet.mem_toList, hstate.1, List.mem_singleton]
  exact ⟨c, hid, congrArg Prod.fst hc, congrArg Prod.snd hc, (hwatched _).mpr rfl,
    fun hbob => absurd ((hwatched _).mp hbob) (by decide), hstate.2⟩

theorem turns_lateWrite : unreadRun.2.store.turns "/users" lateWrite = true := by decide +kernel

theorem done_lateWrite : (unreadRun.2.write lateWrite).1 = .ok true := by decide +kernel

theorem registered_unread :
    .cache 0 ∈ unreadRun.2.store.childWatches.forPath "/users" := by decide +kernel

theorem faults_unread : unreadRun.2.link.faults = [] := by decide +kernel

/-- The record that could not be read is there all along, and it can be read. -/
theorem record_unread : (unreadRun.2.write lateWrite).2.store.nodes["/users/ann_BROKER"]?
      = some (recordOf "ann" "enc:wp") ∧
    sampleVault.credentialAt "ann_BROKER" (recordOf "ann" "enc:wp") = some unread := by
  decide +kernel

theorem record_lateWrite : (unreadRun.2.write lateWrite).2.store.nodes["/users/bob_BROKER"]?
      = some (recordOf "bob" "enc:wp") ∧
    sampleVault.credentialAt "bob_BROKER" (recordOf "bob" "enc:wp") = some late := by
  decide +kernel

/-- Of the two records the cache shows the one that it did not watch before. -/
theorem loaded_lateWrite : ∃ c', (unreadRun.2.write lateWrite).2.caches[0]? = some c' ∧
    c'.get? ⟨"bob_BROKER"⟩ = some late ∧ c'.get? ⟨"ann_BROKER"⟩ = none := by
  obtain ⟨c, hid, hparent, hvault, hann, hbob, hnone⟩ := unread_cache
  obtain ⟨c', hid', hloaded⟩ := run_unread.course.loaded hid (by rw [hparent]; decide)
    (by rw [hparent]; exact registered_unread) (by simp [faults_unread])
    (by rw [hparent]; exact turns_lateWrite) done_lateWrite
  rw [hparent, hvault] at hloaded
  refine ⟨c', hid', ?_, ?_⟩
  · rw [hloaded "bob_BROKER" _ _ (by decide) record_lateWrite.1 record_lateWrite.2,
      if_neg fun hin => hbob hin.1]
  · rw [hloaded "ann_BROKER" _ _ (by decide) record_unread.1 record_unread.2,
      if_pos ⟨hann, by decide⟩, hnone]

/-- **A read that fails may hide a credential**: the cache is told of the child again while reads
succeed, and does not show it. -/
theorem not_loaded : ¬∀ (log : List Deed) (h : Hub), Run (.genuine fun _ => True) log h →
    ∀ (id : Nat) (c : Cache), h.caches[id]? = some c → Path.IsBare c.parent →
      .cache id ∈ h.store.childWatches.forPath c.parent → h.link.faults = [] →
        ∀ w, h.store.turns c.parent w = true → (h.write w).1 = .ok true →
          ∀ c', (h.write w).2.caches[id]? = some c' →
            ∀ (name : String) (r : Record) (x : Credential), Path.IsSegment name →
              (h.write w).2.store.nodes[Path.child c.parent name]? = some r →
                c.vault.credentialAt name r = some x → c'.get? ⟨name⟩ = some x := by
  intro hall
  obtain ⟨c, hid, hparent, hvault, -⟩ := unread_cache
  have hstate : (unreadRun.2.write lateWrite).2.caches[0]?.map (·.get? ⟨"ann_BROKER"⟩)
      = some none := by
    decide +kernel
  obtain ⟨c', hid', hnone⟩ := Option.map_eq_some_iff.mp hstate
  have hshown := hall _ _ run_unread 0 c hid (by rw [hparent]; decide)
    (by rw [hparent]; exact registered_unread) faults_unread lateWrite
    (by rw [hparent]; exact turns_lateWrite) done_lateWrite c' hid' "ann_BROKER"
    (recordOf "ann" "enc:wp") unread (by decide) (by rw [hparent]; exact record_unread.1)
    (by rw [hvault]; exact record_unread.2)
  rw [hnone] at hshown
  cases hshown

end Gatekeeper
