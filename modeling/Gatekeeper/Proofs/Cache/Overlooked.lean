import Gatekeeper.Proofs.Admin.Agreement
import Gatekeeper.Proofs.Cache.Hearing
import Gatekeeper.Proofs.Hub.Bystanders
import Gatekeeper.Proofs.Hub.PlainMap

/-!
# Proofs/Cache/Overlooked — a cache whose parent's path ends in a separator

Take two caches of the same vault that are started at the same point, one for a bare path and one
for that path with a separator at its end.  Both take the same children in.  Of what comes later the
second is not told, as it is registered under a path that no child's parent is found to have
(`Store.tells`); it keeps up with the children that it has noticed, and with no other
(`Run.overlooks`).  It gets to notice more only by a path with an empty segment.

The two are followed through the writes together: what each of them hears of one is known
(`Cache.Hears`), and it leaves them twins (`Cache.Twins.hears`).
-/

namespace Gatekeeper

open Std (ExtTreeMap)
open Hub

/-- A cache of this vault that is ready, for this parent. -/
structure Cache.Serves (parent : String) (vault : Vault) (c : Cache) : Prop where
  parent_eq : c.parent = parent
  vault_eq : c.vault = vault
  phase_eq : c.phase = .ready

theorem Cache.Serves.of_akin {parent : String} {vault : Vault} {c c' : Cache}
    (hc : c.Serves parent vault) (hakin : c.Akin c') : c'.Serves parent vault :=
  ⟨hakin.parent_eq.trans hc.parent_eq, hakin.vault_eq.trans hc.vault_eq,
    hakin.phase_eq.trans hc.phase_eq⟩

/-! ## A start -/

/-- A cache that has just been started watches the children there are, and holds of each what its
record stands for. -/
structure Cache.Started (parent : String) (vault : Vault) (s : Store) (c : Cache) : Prop
    extends c.Serves parent vault where
  watched_iff : ∀ n, n ∈ c.watched ↔ n ∈ s.children parent
  shown : ∀ n ∈ c.watched,
    c.get? ⟨n⟩ = s.nodes[Path.child parent n]?.bind (vault.credentialAt n)

theorem Cache.Started.congr {parent : String} {vault : Vault} {s t : Store} {c : Cache}
    (hc : c.Started parent vault s) (h : t.nodes = s.nodes) : c.Started parent vault t :=
  ⟨hc.toServes, fun n => by rw [hc.watched_iff, Store.children_congr h],
    fun n hn => by rw [hc.shown n hn, h]⟩

theorem Cache.Started.current {parent : String} {vault : Vault} {s : Store} {c : Cache}
    (hc : c.Started parent vault s) : c.Current s where
  children n hn := by
    rw [hc.parent_eq]
    exact (hc.watched_iff n).mp hn
  shown n hn := by
    rw [refreshed, hc.parent_eq, hc.vault_eq, hc.shown n hn, Option.or_self]

/-- **A start takes in the children there are**, however the parent's path is written, and leaves the
records and the other caches alone. -/
theorem Hub.Calm.exists_started {id : Nat} {parent : String} {vault : Vault} {h : Hub}
    {order : Component → Arrangement Identity Credential} (hc : h.Calm)
    (hid : h.caches[id]? = some (.fresh parent vault order)) :
    ∃ c, (h.start id).2.caches = h.caches.insert id c ∧
      (h.start id).2.store.nodes = h.store.nodes ∧ c.Started parent vault h.store := by
  have hlist : listing parent h.link = .ok (h.store.children parent) := by
    rw [listing, Link.takeFault, hc.faults]
    rfl
  obtain ⟨-, hlink, hcaches⟩ := start_of_ok (fun point => .of_nil (hc.races point)) hid rfl hlist
  -- the cache as it is when it takes the children in, and the link that it reads them through
  let c₀ : Cache := { Cache.fresh parent vault order with phase := .syncing }
  let l := listened id parent h.link
  have hbeside : l.Beside (.recorder "") (c₀.track (.cache id) (h.store.children parent) l).2 :=
    Cache.beside_track (by simp) _ c₀ l
  have hreads : ∀ f, (Call.get, f) ∉ l.faults := by
    have hnofaults : l.faults = (Link.takeFrom .list h.link.faults).2 := rfl
    rw [hnofaults, hc.faults]
    exact fun f => List.not_mem_nil
  have hakin := Cache.akin_track (.cache id) (h.store.children parent) c₀ l
  have hwatched : ∀ n, n ∈ (c₀.track (.cache id) (h.store.children parent) l).1.watched ↔
      n ∈ h.store.children parent := fun n =>
    Cache.mem_watched_track.trans (or_iff_left Std.ExtTreeSet.not_mem_empty)
  refine ⟨_, hcaches, ?_, ⟨hakin.parent_eq, hakin.vault_eq, rfl⟩, hwatched, fun n hn => ?_⟩
  · rw [Hub.store, hlink]
    exact hbeside.nodes
  · exact Cache.get?_track_new id (c := c₀) hreads (Store.children_congr (t := l.store) rfl parent)
      (Cache.get?_fresh parent vault order) rfl (Store.mem_children.mp ((hwatched n).mp hn)).1

/-! ## Two caches, side by side -/

/-- **Twins are two caches for the same children**, one for a bare path and one for the path with a
separator at its end: the one watches all of them, the other these names, and what the other holds at
all is what the one holds. -/
structure Cache.Twins (p : String) (v : Vault) (s : Store) (names : List String)
    (c c' : Cache) : Prop where
  serves : c.Serves p v
  serves' : c'.Serves (p ++ "/") v
  current : c.Current s
  current' : c'.Current s
  watched : ∀ n ∈ s.children p, n ∈ c.watched
  watched_iff' : ∀ n, n ∈ c'.watched ↔ n ∈ names
  less : ∀ n, c'.get? ⟨n⟩ = none ∨ c'.get? ⟨n⟩ = c.get? ⟨n⟩

section Twins

variable {p : String} {v : Vault} {s t : Store} {names : List String} {w : Write}
  {c c' d d' : Cache} {n : String}

theorem Cache.Twins.congr (ht : Twins p v s names c c') (h : t.nodes = s.nodes) :
    Twins p v t names c c' :=
  { ht with
    current := ht.current.of_nodes h
    current' := ht.current'.of_nodes h
    watched := fun n hn => ht.watched n (Store.children_congr h p ▸ hn) }

/-- For both of them a child's record is the same. -/
theorem Cache.Serves.refreshed_eq (hc : c.Serves p v) (hc' : c'.Serves (p ++ "/") v) (s : Store)
    (n : String) :
    c.refreshed s n = (s.nodes[Path.child p n]?.bind (v.credentialAt n)).or (c.get? ⟨n⟩) ∧
      c'.refreshed s n = (s.nodes[Path.child p n]?.bind (v.credentialAt n)).or (c'.get? ⟨n⟩) := by
  rw [refreshed, refreshed, hc.parent_eq, hc.vault_eq, hc'.parent_eq, hc'.vault_eq,
    Path.child_append_slash]
  exact ⟨rfl, rfl⟩

/-- What the second cache watches, the first watches too. -/
theorem Cache.Twins.mem_watched (ht : Twins p v s names c c') (hn : n ∈ c'.watched) :
    n ∈ c.watched := by
  refine ht.watched n ?_
  have hchild := ht.current'.children n hn
  rwa [ht.serves'.parent_eq, Store.children_append_slash] at hchild

theorem Cache.Twins.mem_watched_of_hears (ht : Twins p v s names c c') (hbare : Path.IsBare p)
    (hears : c.Hears s w d) (hn : n ∈ (s.after w).children p) : n ∈ d.watched := by
  rw [hears.watched_iff, ht.serves.parent_eq]
  refine ⟨hn, ?_⟩
  by_cases hold : n ∈ s.children p
  · exact .inl (ht.watched n hold)
  · exact .inr (Store.tells_of_mem_children hbare hn hold)

/-- What the two hold of a child that both watch is the same after a write, if it was before. -/
theorem Cache.Twins.get?_eq_of_hears (ht : Twins p v s names c c') (hears : c.Hears s w d)
    (hears' : c'.Hears s w d') (hn : n ∈ d.watched) (hn' : n ∈ d'.watched)
    (hsame : c'.get? ⟨n⟩ = c.get? ⟨n⟩) : d'.get? ⟨n⟩ = d.get? ⟨n⟩ := by
  obtain ⟨heq, heq'⟩ := ht.serves.refreshed_eq ht.serves' (s.after w) n
  rw [hears.shown n hn, hears'.shown n hn', heq, heq', hsame]

/-- **Twins are twins after what they hear of a write.** -/
theorem Cache.Twins.hears (ht : Twins p v s names c c') (hbare : Path.IsBare p)
    (hears : c.Hears s w d) (hears' : c'.Hears s w d')
    (habsent : ∀ n, n ∉ d'.watched → d'.get? ⟨n⟩ = none) :
    Twins p v (s.after w) (Store.noticed (p ++ "/") s names w) d d' where
  serves := ht.serves.of_akin hears.akin
  serves' := ht.serves'.of_akin hears'.akin
  current := hears.current
  current' := hears'.current
  watched n hn := ht.mem_watched_of_hears hbare hears hn
  watched_iff' n := by
    rw [hears'.watched_iff, Store.mem_noticed, ht.watched_iff', ht.serves'.parent_eq]
  less n := by
    by_cases hn' : n ∈ d'.watched
    · have hchild := ((hears'.watched_iff n).mp hn').1
      rw [ht.serves'.parent_eq, Store.children_append_slash] at hchild
      have hn := ht.mem_watched_of_hears hbare hears hchild
      obtain hnone | hsame := ht.less n
      · -- then the second holds what the record stands for, or nothing
        obtain ⟨heq, heq'⟩ := ht.serves.refreshed_eq ht.serves' (s.after w) n
        rw [hears.shown n hn, hears'.shown n hn', heq, heq', hnone]
        cases (s.after w).nodes[Path.child p n]?.bind (v.credentialAt n) with
        | none => exact .inl rfl
        | some x => exact .inr rfl
      · exact .inr (ht.get?_eq_of_hears hears hears' hn hn' hsame)
    · exact .inl (habsent n hn')

end Twins

/-! ## Through the writes -/

section Run

variable {p : String} {v : Vault} {log : List Deed} {h : Hub} {id id' : Nat} {c c' : Cache}
  {order order' : Component → Arrangement Identity Credential}

/-- A cache that is current hears of a write in a run without faults. -/
theorem Run.exists_hears (hr : Run .faultless log h) (hid : h.caches[id]? = some c)
    (hcur : c.Current h.store) (hready : c.phase = .ready) {w : Write} (hw : w.IsGenuine) :
    ∃ d, (h.submit w).2.caches[id]? = some d ∧ c.Hears h.store w d ∧
      ∀ n, n ∉ d.watched → d.get? ⟨n⟩ = none := by
  have hfaults := hr.faults_eq_nil
  obtain ⟨d, hd, hears⟩ := hcur.exists_hears hr.unarmed (by simp [hfaults]) hid (hr.follows hid)
    (by simp [hready]) hw
  rw [← submit_of_faultless hfaults] at hd
  exact ⟨d, hd, hears, ((hr.act (a := .write w) hw).follows hd).absent⟩

/-- **Twins remain twins through writes**, and what they hold of a child alike they go on to hold
alike, as long as the child is not removed. -/
theorem Run.twins_inTurn (hbare : Path.IsBare p) : ∀ {ws : List Write} {log : List Deed} {h : Hub}
    {c c' : Cache} {names : List String}, Run .faultless log h → h.caches[id]? = some c →
      h.caches[id']? = some c' → Cache.Twins p v h.store names c c' →
      (∀ w ∈ ws, w.IsGenuine) →
        ∃ log' d d', Run .faultless log' (inTurn Hub.submit ws h).2 ∧
          (inTurn Hub.submit ws h).2.caches[id]? = some d ∧
          (inTurn Hub.submit ws h).2.caches[id']? = some d' ∧
          Cache.Twins p v (inTurn Hub.submit ws h).2.store
            (Store.noticedAll (p ++ "/") h.store names ws) d d' ∧
          ∀ n ∈ names, c'.get? ⟨n⟩ = c.get? ⟨n⟩ → .remove (Path.child p n) ∉ ws →
            d'.get? ⟨n⟩ = d.get? ⟨n⟩
  | [], log, h, c, c', names, hr, hid, hid', ht, _ =>
    ⟨log, c, c', hr, hid, hid', ht, fun _ _ hsame _ => hsame⟩
  | w :: ws, log, h, c, c', names, hr, hid, hid', ht, hws => by
    have hw : w.IsGenuine := hws w List.mem_cons_self
    obtain ⟨d, hd, hears, -⟩ := hr.exists_hears hid ht.current ht.serves.phase_eq hw
    obtain ⟨d', hd', hears', habsent⟩ := hr.exists_hears hid' ht.current' ht.serves'.phase_eq hw
    have hnodes : (h.submit w).2.store.nodes = (h.store.after w).nodes := by
      rw [submit_of_faultless hr.faults_eq_nil, nodes_write_after]
    have ha₁ := (ht.hears hbare hears hears' habsent).congr hnodes
    obtain ⟨log', e, e', hr', he, he', ht', halike⟩ :=
      Run.twins_inTurn hbare (hr.act (a := .write w) hw) hd hd' ha₁
        fun u hu => hws u (List.mem_cons_of_mem w hu)
    refine ⟨log', e, e', hr', he, he', ?_, fun n hn hsame hstays => ?_⟩
    · rw [inTurn_cons, Store.noticedAll, ← Store.noticedAll_congr (p ++ "/") ws _ hnodes]
      exact ht'
    · obtain ⟨hne, hstays'⟩ := not_or.mp (mt List.mem_cons.mpr hstays)
      have hnoticed : n ∈ Store.noticed (p ++ "/") h.store names w := by
        refine Store.mem_noticed.mpr ⟨Store.mem_children_after ?_ ?_, .inl hn⟩
        · rw [← ht.serves'.parent_eq]
          exact ht.current'.children n ((ht.watched_iff' n).mpr hn)
        · rw [Path.child_append_slash]
          exact Ne.symm hne
      have hn' : n ∈ d'.watched := (ha₁.watched_iff' n).mpr hnoticed
      refine halike n hnoticed ?_ hstays'
      exact ht.get?_eq_of_hears hears hears' (ha₁.mem_watched hn') hn' hsame

/-- Caches that have been started one after the other. -/
theorem Hub.Calm.exists_started_both {q q' : String} (hc : h.Calm) (hne : id ≠ id')
    (hid : h.caches[id]? = some (.fresh q v order))
    (hid' : h.caches[id']? = some (.fresh q' v order')) :
    ∃ c c', ((h.start id).2.start id').2.caches[id]? = some c ∧
      ((h.start id).2.start id').2.caches[id']? = some c' ∧
      ((h.start id).2.start id').2.store.nodes = h.store.nodes ∧
      c.Started q v h.store ∧ c'.Started q' v h.store := by
  obtain ⟨c, hcaches, hnodes, hc₁⟩ := hc.exists_started hid
  have hcalm : (h.start id).2.Calm := hc.perform (a := .start id) trivial
  have hid₁ : (h.start id).2.caches[id']? = some (.fresh q' v order') := by
    simpa [hcaches, ExtTreeMap.getElem?_insert, hne] using hid'
  obtain ⟨c', hcaches', hnodes', hc₂⟩ := hcalm.exists_started hid₁
  refine ⟨c, c', ?_, ?_, hnodes'.trans hnodes, hc₁, hc₂.congr hnodes.symm⟩
  · rw [hcaches', hcaches, ExtTreeMap.getElem?_insert]
    simp [Ne.symm hne]
  · rw [hcaches', ExtTreeMap.getElem?_insert_self]

/-- Caches that have just been started for the same children are twins, and hold the same. -/
theorem Cache.Started.twins {s : Store} (hc : c.Started p v s) (hc' : c'.Started (p ++ "/") v s)
    (habsent : ∀ n, n ∉ c'.watched → c'.get? ⟨n⟩ = none) :
    Twins p v s (s.children p) c c' ∧ ∀ n ∈ s.children p, c'.get? ⟨n⟩ = c.get? ⟨n⟩ := by
  have hwatched' : ∀ n, n ∈ c'.watched ↔ n ∈ s.children p := fun n => by
    rw [hc'.watched_iff, Store.children_append_slash]
  have hsame : ∀ n ∈ s.children p, c'.get? ⟨n⟩ = c.get? ⟨n⟩ := fun n hn => by
    rw [hc.shown n ((hc.watched_iff n).mpr hn), hc'.shown n ((hwatched' n).mpr hn),
      Path.child_append_slash]
  refine ⟨⟨hc.toServes, hc'.toServes, hc.current, hc'.current, fun n => (hc.watched_iff n).mpr,
    hwatched', fun n => ?_⟩, hsame⟩
  by_cases hn : n ∈ s.children p
  · exact .inr (hsame n hn)
  · exact .inl (habsent n (mt (hwatched' n).mp hn))

/-- **Two caches for the same children are twins once both have been started**, in either order, and
hold the same. -/
theorem Run.exists_twins (hr : Run .faultless log h) (hraces : ∀ point, h.races point = [])
    (hid : h.caches[id]? = some (.fresh p v order))
    (hid' : h.caches[id']? = some (.fresh (p ++ "/") v order')) {started : Hub}
    (hstarted : started = ((h.start id).2.start id').2 ∨ started = ((h.start id').2.start id).2) :
    ∃ log₁ c c', Run .faultless log₁ started ∧ started.caches[id]? = some c ∧
      started.caches[id']? = some c' ∧ started.store.nodes = h.store.nodes ∧
      Cache.Twins p v h.store (h.store.children p) c c' ∧
      ∀ n ∈ h.store.children p, c'.get? ⟨n⟩ = c.get? ⟨n⟩ := by
  have hcalm : h.Calm :=
    ⟨hr.faults_eq_nil, hr.unarmed, hraces⟩
  have hne : id ≠ id' := by
    rintro rfl
    have hparent : p = p ++ "/" := congrArg Cache.parent (Option.some.inj (hid.symm.trans hid'))
    have hlength := congrArg String.length hparent
    simp at hlength
  obtain rfl | rfl := hstarted
  · have hr₁ := (hr.act (a := .start id) trivial).act (a := .start id') trivial
    obtain ⟨c, c', hc, hc', hnodes, hs, hs'⟩ := hcalm.exists_started_both hne hid hid'
    exact ⟨_, c, c', hr₁, hc, hc', hnodes, hs.twins hs' (hr₁.follows hc').absent⟩
  · have hr₁ := (hr.act (a := .start id') trivial).act (a := .start id) trivial
    obtain ⟨c', c, hc', hc, hnodes, hs', hs⟩ := hcalm.exists_started_both (Ne.symm hne) hid' hid
    exact ⟨_, c, c', hr₁, hc, hc', hnodes, hs.twins hs' (hr₁.follows hc').absent⟩

/-! ## What is overlooked -/

/-- **What a cache overlooks whose parent's path ends in a separator**, beside one for the bare path,
when these are the children that it has noticed. -/
structure Cache.Overlooks (p : String) (v : Vault) (s : Store) (noticed : List String)
    (c c' : Cache) : Prop where
  ready : c.phase = .ready ∧ c'.phase = .ready
  /-- The first watches all children, and the second those that it has noticed. -/
  watched : ∀ n, (n ∈ c.watched ↔ n ∈ s.children p) ∧ (n ∈ c'.watched ↔ n ∈ noticed)
  /-- Where the record of a child stands for a credential, the first holds it, and the second just if
  it has noticed the child. -/
  shown : ∀ n ∈ s.children p, ∀ x, s.nodes[Path.child p n]?.bind (v.credentialAt n) = some x →
    c.get? ⟨n⟩ = some x ∧ c'.get? ⟨n⟩ = if n ∈ noticed then some x else none
  /-- What the second holds at all, the first holds too. -/
  less : ∀ k, c'.get? k = none ∨ c'.get? k = c.get? k
  /-- Where all records stand for credentials, the two hold the same just if the second has noticed
  all children. -/
  same_iff : (∀ n ∈ s.children p, (s.nodes[Path.child p n]?.bind (v.credentialAt n)).isSome) →
    ((∀ k, c'.get? k = c.get? k) ↔ ∀ n ∈ s.children p, n ∈ noticed)

theorem Cache.Twins.shown {s : Store} {names : List String} (ht : Twins p v s names c c')
    (habsent' : ∀ n, n ∉ c'.watched → c'.get? ⟨n⟩ = none) {n : String} (hn : n ∈ s.children p)
    {x : Credential} (hx : s.nodes[Path.child p n]?.bind (v.credentialAt n) = some x) :
    c.get? ⟨n⟩ = some x ∧ c'.get? ⟨n⟩ = if n ∈ names then some x else none := by
  obtain ⟨heq, heq'⟩ := ht.serves.refreshed_eq ht.serves' s n
  rw [hx, Option.some_or] at heq heq'
  refine ⟨(ht.current.shown n (ht.watched n hn)).trans heq, ?_⟩
  split
  · next hin => exact (ht.current'.shown n ((ht.watched_iff' n).mpr hin)).trans heq'
  · next hout => exact habsent' n (mt (ht.watched_iff' n).mp hout)

theorem Cache.Overlooks.of_twins {s : Store} {names : List String}
    (ht : Twins p v s names c c') (habsent : ∀ n, n ∉ c.watched → c.get? ⟨n⟩ = none)
    (habsent' : ∀ n, n ∉ c'.watched → c'.get? ⟨n⟩ = none) : Overlooks p v s names c c' := by
  have hwatched : ∀ n, n ∈ c.watched ↔ n ∈ s.children p := fun n =>
    ⟨fun hn => ht.serves.parent_eq ▸ ht.current.children n hn, ht.watched n⟩
  refine ⟨⟨ht.serves.phase_eq, ht.serves'.phase_eq⟩, fun n => ⟨hwatched n, ht.watched_iff' n⟩,
    fun n hn x hx => ht.shown habsent' hn hx, fun k => ht.less k.text,
    fun hall => ⟨fun hsame n hn => ?_, fun hnoticed k => ?_⟩⟩
  · obtain ⟨x, hx⟩ := Option.isSome_iff_exists.mp (hall n hn)
    obtain ⟨hone, hother⟩ := ht.shown habsent' hn hx
    by_contra hout
    rw [if_neg hout, hsame, hone] at hother
    cases hother
  · by_cases hk : k.text ∈ s.children p
    · obtain ⟨x, hx⟩ := Option.isSome_iff_exists.mp (hall k.text hk)
      obtain ⟨hone, hother⟩ := ht.shown habsent' hk hx
      rw [if_pos (hnoticed k.text hk)] at hother
      exact hother.trans hone.symm
    · have hnone : c.get? k = none := habsent k.text (mt (hwatched k.text).mp hk)
      exact (ht.less k.text).elim (fun hno => hno.trans hnone.symm) fun hsame => hsame

/-- **A cache whose parent's path ends in a separator overlooks the children that come later.**  Take
a run without faults that has come to two caches that are new, of the same vault, one for a bare path
and one for that path with a separator at its end, and start both, in either order, where no race
waits.  After any writes from there on, the first holds what the records stand for, and the second
holds that of the children that it has noticed, and of the others nothing.  Of the children that were
there at the start and have not been removed the two hold the same; of one that came later the second
holds nothing, unless a path with an empty segment has been written. -/
theorem Run.overlooks (hr : Run .faultless log h) (hraces : ∀ point, h.races point = [])
    (hbare : Path.IsBare p) (hid : h.caches[id]? = some (.fresh p v order))
    (hid' : h.caches[id']? = some (.fresh (p ++ "/") v order')) {started : Hub}
    (hstarted : started = ((h.start id).2.start id').2 ∨ started = ((h.start id').2.start id).2)
    {ws : List Write} (hws : ∀ w ∈ ws, w.IsGenuine) :
    ∃ c c', (inTurn Hub.submit ws started).2.caches[id]? = some c ∧
      (inTurn Hub.submit ws started).2.caches[id']? = some c' ∧
      c.Overlooks p v (inTurn Hub.submit ws started).2.store
        (Store.noticedAll (p ++ "/") h.store (h.store.children p) ws) c' ∧
      (∀ n ∈ h.store.children p, .remove (Path.child p n) ∉ ws → c'.get? ⟨n⟩ = c.get? ⟨n⟩) ∧
      ((∀ w ∈ ws, ∀ path, w.path? = some path → Path.parent? path ≠ some (p ++ "/")) →
        ∀ n, n ∉ h.store.children p → c'.get? ⟨n⟩ = none) := by
  obtain ⟨log₁, c, c', hr₁, hc, hc', hnodes, ht, hsame⟩ :=
    hr.exists_twins hraces hid hid' hstarted
  obtain ⟨log₂, d, d', hr₂, hd, hd', ht', halike⟩ :=
    Run.twins_inTurn hbare hr₁ hc hc' (ht.congr hnodes) hws
  rw [Store.noticedAll_congr (p ++ "/") ws _ hnodes] at ht'
  have habsent := (hr₂.follows hd).absent
  have habsent' := (hr₂.follows hd').absent
  refine ⟨d, d', hd, hd', .of_twins ht' habsent habsent', fun n hn => ?_,
    fun hsilent n hn => habsent' n fun hin => hn ?_⟩
  · exact halike n hn (hsame n hn)
  · exact Store.mem_of_mem_noticedAll hsilent ((ht'.watched_iff' n).mp hin)

end Run

/-- The small hub with a second cache for the same node. -/
def twinHub : Hub :=
  { Hub.empty with caches := sampleHub.caches.insert 1 (.new "/users/" sampleVault) }

/-- The log and the hub once a credential has been written, before the caches are started. -/
def twinRun : List Deed × Hub :=
  Act.performAll [.write (.create "/users/bob_BROKER" (recordOf "bob" "enc:wp"))] [] twinHub

/-- The caches have been started. -/
def twinStarted : Hub := ((twinRun.2.start 0).2.start 1).2

/-- A credential is added, and the other is written over. -/
def twinWrites : List Write :=
  [.create "/users/ann_BROKER" (recordOf "ann" "enc:wp"),
    .set "/users/bob_BROKER" (recordOf "bob" "enc:terces")]

theorem run_twin : Run .faultless twinRun.1 twinRun.2 := by
  refine Run.performAll (.initial fun id c hc => ?_) fun a ht => ?_
  · rw [ExtTreeMap.getElem?_insert] at hc
    split at hc
    · cases hc
      rfl
    · exact new_sampleHub id c hc
  · obtain rfl := List.mem_singleton.mp ht
    trivial

theorem races_twin : ∀ point, twinRun.2.races point = [] :=
  ((calm_initial twinHub.caches).perform (a := .write _) trivial).races

/-- The second cache has followed the one child, and knows nothing of the other until a path with an
empty segment is written. -/
theorem overlooks_twin :
    (∃ c c', (inTurn Hub.submit twinWrites twinStarted).2.caches[0]? = some c ∧
      (inTurn Hub.submit twinWrites twinStarted).2.caches[1]? = some c' ∧
      c.Overlooks "/users" sampleVault (inTurn Hub.submit twinWrites twinStarted).2.store
        (Store.noticedAll "/users/" twinRun.2.store (twinRun.2.store.children "/users")
          twinWrites) c' ∧
      c'.get? ⟨"bob_BROKER"⟩ = c.get? ⟨"bob_BROKER"⟩ ∧ c'.get? ⟨"ann_BROKER"⟩ = none) ∧
    ((inTurn Hub.submit (twinWrites ++ [.create "/users//x" (.empty "x")]) twinStarted).2.caches[
      1]?.bind fun c => (c.get? ⟨"ann_BROKER"⟩).map Credential.secret) = some "pw" := by
  have hbare : twinRun.2.caches[0]? = some (.new "/users" sampleVault) := rfl
  have hother : twinRun.2.caches[1]? = some (.new "/users/" sampleVault) := rfl
  have hgenuine : ∀ w ∈ twinWrites, w.IsGenuine := by simp [twinWrites, Write.IsGenuine]
  have hsilent : ∀ w ∈ twinWrites, ∀ path, w.path? = some path →
      Path.parent? path ≠ some "/users/" := by
    simp only [twinWrites, List.forall_mem_cons, Write.path?, Option.some.injEq, forall_eq',
      List.not_mem_nil, false_imp_iff, implies_true, and_true]
    decide +kernel
  obtain ⟨c, c', hc, hc', hover, hkept, hlate⟩ :=
    run_twin.overlooks races_twin (p := "/users") (by decide) hbare hother (.inl rfl)
      hgenuine
  refine ⟨⟨c, c', hc, hc', hover, hkept _ (by decide +kernel) ?_, ?_⟩, by decide +kernel⟩
  · simp [twinWrites]
  · exact hlate hsilent _ (by decide +kernel)

/-- **A separator at the end of a parent's path is not immaterial**: the two caches do not hold the
same after a child has been added. -/
theorem not_separator_immaterial :
    ¬∀ (log : List Deed) (h : Hub) (p : String) (v : Vault) (id id' : Nat) (ws : List Write),
      Run .faultless log h → (∀ point, h.races point = []) → Path.IsBare p →
      h.caches[id]? = some (.new p v) → h.caches[id']? = some (.new (p ++ "/") v) →
      (∀ w ∈ ws, w.IsGenuine) → ∀ k,
        ((inTurn Hub.submit ws ((h.start id).2.start id').2).2.caches[id']?.bind (·.get? k))
          = ((inTurn Hub.submit ws ((h.start id).2.start id').2).2.caches[id]?.bind (·.get? k)) := by
  intro hall
  have hsame := hall twinRun.1 twinRun.2 "/users" sampleVault 0 1
    [.create "/users/ann_BROKER" (recordOf "ann" "enc:wp")] run_twin races_twin (by decide) rfl rfl
    (by simp [Write.IsGenuine]) ⟨"ann_BROKER"⟩
  have hdiffers : ((inTurn Hub.submit [.create "/users/ann_BROKER" (recordOf "ann" "enc:wp")]
      twinStarted).2.caches[1]?.bind (·.get? ⟨"ann_BROKER"⟩)).isSome ≠
        ((inTurn Hub.submit [.create "/users/ann_BROKER" (recordOf "ann" "enc:wp")]
          twinStarted).2.caches[0]?.bind (·.get? ⟨"ann_BROKER"⟩)).isSome := by
    decide +kernel
  exact hdiffers (congrArg Option.isSome hsame)

end Gatekeeper
