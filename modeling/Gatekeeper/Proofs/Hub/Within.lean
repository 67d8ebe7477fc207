import Gatekeeper.Proofs.Hub.Course

/-!
# Proofs/Hub/Within — a hub, as some of its watchers have it

Take some watchers out of all that there are.  `Hub.within` is the hub with their caches, their
registrations and what they have heard, and nothing of anybody else.  The records are the same, so a
write has the same effect there and the same events; it tells the same watchers among those that are
left, in the same order.

So it is one thing to do a write and then look at some watchers alone, and another to do it with
nobody else there, but it comes to the same: `Hub.Calm.write_within`, for a `Calm` hub, where nothing
fails, nobody breaks off and no race waits.  What makes it true is that telling one of them commutes
with leaving the others out (`within_tell`), while telling one of the others changes nothing that is
kept (`Calm.within_tell_of_not`): a cache that is told reads the records, and registers and takes
back for itself alone.
-/

namespace Gatekeeper

open Std (ExtTreeMap)

variable {own : Watcher → Bool}

/-! ## Registrations -/

namespace Watches

/-- The registrations of some watchers. -/
def within (own : Watcher → Bool) (ws : Watches) : Watches := ⟨ws.entries.filter fun e => own e.2⟩

theorem forPath_within (ws : Watches) (path : String) :
    (ws.within own).forPath path = (ws.forPath path).filter own := by
  rw [forPath, forPath, within]
  induction ws.entries with
  | nil => rfl
  | cons e es ih =>
    by_cases hpath : e.1 = path <;> cases hown : own e.2 <;> simp [hpath, hown, ih]

theorem within_add {w : Watcher} (hw : own w = true) (ws : Watches) (path : String) :
    (ws.add path w).within own = (ws.within own).add path w := by
  have hmem : (path, w) ∈ (ws.within own).entries ↔ (path, w) ∈ ws.entries := by
    simp [within, hw]
  rw [add, add]
  simp only [hmem]
  split
  · rfl
  · simp [within, hw]

theorem within_add_of_not {w : Watcher} (hw : own w = false) (ws : Watches) (path : String) :
    (ws.add path w).within own = ws.within own := by
  rw [add]
  split
  · rfl
  · simp [within, hw]

theorem within_drop (ws : Watches) (path : String) (w : Watcher) :
    (ws.drop path w).within own = (ws.within own).drop path w := by
  simp only [drop, within, List.filter_filter, Bool.and_comm]

theorem within_drop_of_not {w : Watcher} (hw : own w = false) (ws : Watches) (path : String) :
    (ws.drop path w).within own = ws.within own := by
  rw [drop, within, within, List.filter_filter]
  refine congrArg Watches.mk (List.filter_congr fun e _ => ?_)
  by_cases he : e = (path, w)
  · simp [he, hw]
  · simp [he]

end Watches

/-! ## Stores -/

namespace Store

/-- The store with the registrations of some watchers. -/
def within (own : Watcher → Bool) (s : Store) : Store :=
  { s with
    childWatches := s.childWatches.within own
    dataWatches := s.dataWatches.within own }

theorem watchersOf_within (s : Store) (e : Event) :
    (s.within own).watchersOf e = (s.watchersOf e).filter own := by
  cases e <;> exact Watches.forPath_within _ _

/-- Registrations have no part in what a write does. -/
theorem effect_within (s : Store) (w : Write) :
    (s.within own).effect w
      = (s.effect w).map fun f => { f with store := f.store.within own } := by
  cases w with
  | create path r =>
    rw [effect, effect]
    change (if path ∈ s.nodes then _ else _) = _
    split <;> rfl
  | set path r => rfl
  | remove path =>
    rw [effect, effect]
    change (if path ∈ s.nodes then _ else _) = _
    split <;> rfl
  | notify e => rfl

end Store

/-! ## Links -/

namespace Link

/-- The link to the store with the registrations of some watchers. -/
def within (own : Watcher → Bool) (l : Link) : Link := { l with store := l.store.within own }

theorem get_within (l : Link) (path : String) :
    (l.within own).get path = ((l.get path).1, (l.get path).2.within own) := by
  cases hf : (takeFrom .get l.faults).1 with
  | none => simp [get, takeFault, within, hf, Store.within]
  | some f => cases f <;> simp [get, takeFault, within, hf]

/-- Reading takes nothing where no fault is to come. -/
theorem get_snd_of_faultless {l : Link} (hl : l.faults = []) (path : String) :
    (l.get path).2 = l := by
  obtain ⟨store, faults⟩ := l
  subst hl
  rfl

theorem within_watchData {w : Watcher} (hw : own w = true) (l : Link) (path : String) :
    (l.watchData path w).within own = (l.within own).watchData path w := by
  simp only [watchData, within, Store.within, Watches.within_add hw]

theorem within_watchChildren {w : Watcher} (hw : own w = true) (l : Link) (path : String) :
    (l.watchChildren path w).within own = (l.within own).watchChildren path w := by
  simp only [watchChildren, within, Store.within, Watches.within_add hw]

theorem within_unwatchData (l : Link) (path : String) (w : Watcher) :
    (l.unwatchData path w).within own = (l.within own).unwatchData path w := by
  simp only [unwatchData, within, Store.within, Watches.within_drop]

/-- **The second link is the first but for the registrations of others.** -/
structure Unseen (own : Watcher → Bool) (l l' : Link) : Prop where
  within : l'.within own = l.within own
  faults : l'.faults = l.faults

theorem Unseen.refl (l : Link) : l.Unseen own l := ⟨rfl, rfl⟩

theorem Unseen.trans {l₁ l₂ l₃ : Link} (h : l₁.Unseen own l₂) (h' : l₂.Unseen own l₃) :
    l₁.Unseen own l₃ :=
  ⟨h'.within.trans h.within, h'.faults.trans h.faults⟩

theorem unseen_watchData {w : Watcher} (hw : own w = false) (l : Link) (path : String) :
    l.Unseen own (l.watchData path w) :=
  ⟨by simp only [watchData, within, Store.within, Watches.within_add_of_not hw], rfl⟩

theorem unseen_watchChildren {w : Watcher} (hw : own w = false) (l : Link) (path : String) :
    l.Unseen own (l.watchChildren path w) :=
  ⟨by simp only [watchChildren, within, Store.within, Watches.within_add_of_not hw], rfl⟩

theorem unseen_unwatchData {w : Watcher} (hw : own w = false) (l : Link) (path : String) :
    l.Unseen own (l.unwatchData path w) :=
  ⟨by simp only [unwatchData, within, Store.within, Watches.within_drop_of_not hw], rfl⟩

end Link

/-! ## Caches -/

namespace Cache

theorem load_within (c : Cache) (path : String) (l : Link) :
    c.load path (l.within own) = ((c.load path l).1, (c.load path l).2.within own) := by
  rw [load, load, Link.get_within]
  rcases l.get path with ⟨_ | _ | r, l'⟩ <;> rfl

section Own

variable {self : Watcher}

theorem trackChild_within (hself : own self = true) (name : String) (c : Cache) (l : Link) :
    trackChild self name c (l.within own)
      = ((trackChild self name c l).1, (trackChild self name c l).2.within own) := by
  rw [trackChild, trackChild]
  split
  · rfl
  · dsimp only
    rw [← Link.within_watchData hself, load_within]

theorem track_within (hself : own self = true) : ∀ (names : List String) (c : Cache) (l : Link),
    track self names c (l.within own)
      = ((track self names c l).1, (track self names c l).2.within own)
  | [], _, _ => rfl
  | name :: names, c, l => by
    rw [track, track, trackChild_within hself]
    exact track_within hself names _ _

/-- **What a cache does when it is told of an event does not depend on who else is registered.** -/
theorem receive_within (hself : own self = true) (e : Event) (c : Cache) (l : Link) :
    c.receive self e (l.within own)
      = ((c.receive self e l).1, (c.receive self e l).2.within own) := by
  cases e with
  | children path names =>
    rw [receive, receive]
    split
    · exact track_within hself names c l
    · rfl
  | changed path r => rfl
  | deleted path =>
    rw [receive, receive, ← Link.within_unwatchData]

end Own

section Others

variable {other : Watcher}

theorem unseen_trackChild (hother : own other = false) (name : String) (c : Cache) {l : Link}
    (hl : l.faults = []) : l.Unseen own (trackChild other name c l).2 := by
  rw [trackChild]
  split
  · exact .refl l
  · rw [load_snd, Link.get_snd_of_faultless (by exact hl)]
    exact Link.unseen_watchData hother l _

theorem unseen_track (hother : own other = false) : ∀ (names : List String) (c : Cache) {l : Link},
    l.faults = [] → l.Unseen own (track other names c l).2
  | [], _, l, _ => .refl l
  | name :: names, c, l, hl => by
    have hchild := unseen_trackChild hother name c hl
    exact hchild.trans (unseen_track hother names _ (hchild.faults.trans hl))

/-- **What another cache does when it is told of an event is not seen.** -/
theorem unseen_receive (hother : own other = false) (e : Event) (c : Cache) {l : Link}
    (hl : l.faults = []) : l.Unseen own (c.receive other e l).2 := by
  cases e with
  | children path names =>
    rw [receive]
    split
    · exact unseen_track hother names c hl
    · exact .refl l
  | changed path r => exact .refl l
  | deleted path => exact Link.unseen_unwatchData hother l path

end Others

end Cache

/-! ## Hubs -/

theorem filter_insert {α : Type} {p : Nat → Bool} {k : Nat} (hk : p k = true)
    (m : ExtTreeMap Nat α) (a : α) :
    (m.insert k a).filter (fun i _ => p i) = (m.filter fun i _ => p i).insert k a := by
  refine ExtTreeMap.ext_getElem? fun i => ?_
  simp only [ExtTreeMap.getElem?_filter', ExtTreeMap.getElem?_insert]
  by_cases hi : k = i
  · subst hi
    simp [hk]
  · simp [hi]

theorem filter_insert_of_not {α : Type} {p : Nat → Bool} {k : Nat} (hk : p k = false)
    (m : ExtTreeMap Nat α) (a : α) :
    (m.insert k a).filter (fun i _ => p i) = m.filter fun i _ => p i := by
  refine ExtTreeMap.ext_getElem? fun i => ?_
  simp only [ExtTreeMap.getElem?_filter', ExtTreeMap.getElem?_insert]
  by_cases hi : k = i
  · subst hi
    simp [hk]
  · simp [hi]

namespace Hub

/-- **The hub, as some watchers have it**: with their caches, their registrations, and what they have
heard. -/
def within (own : Watcher → Bool) (h : Hub) : Hub :=
  { h with
    link := h.link.within own
    caches := h.caches.filter fun id _ => own (.cache id)
    heard := h.heard.filter fun x => own (.recorder x.1) }

theorem getElem?_within {id : Nat} (hid : own (.cache id) = true) (h : Hub) :
    (h.within own).caches[id]? = h.caches[id]? := by
  simp only [within, ExtTreeMap.getElem?_filter', hid]
  cases h.caches[id]? <;> rfl

/-- A change of one of the caches is the same with nobody else there, if it is so of its link. -/
theorem within_changeCache {id : Nat} (hid : own (.cache id) = true)
    {f : Cache → Link → Cache × Link}
    (hf : ∀ c l, f c (l.within own) = ((f c l).1, (f c l).2.within own)) (h : Hub) :
    (h.changeCache id f).within own = (h.within own).changeCache id f := by
  rw [changeCache, changeCache, getElem?_within hid]
  cases h.caches[id]? with
  | none => rfl
  | some c =>
    have hlink : (h.within own).link = h.link.within own := rfl
    simp only [hlink, hf]
    simp only [within, filter_insert (p := fun i => own (.cache i)) hid]

/-- A change of another cache is not seen. -/
theorem within_changeCache_of_not {id : Nat} (hid : own (.cache id) = false)
    {f : Cache → Link → Cache × Link} {h : Hub}
    (hf : ∀ c, h.link.Unseen own (f c h.link).2) :
    (h.changeCache id f).within own = h.within own := by
  rw [changeCache]
  cases h.caches[id]? with
  | none => rfl
  | some c =>
    simp only [within, (hf c).within, filter_insert_of_not (p := fun i => own (.cache i)) hid]

/-! ## Delivery -/

/-- **The hub is calm**: no call will fail, no recorder is armed, and no race waits. -/
structure Calm (h : Hub) : Prop where
  faults : h.link.faults = []
  unarmed : h.Unarmed
  races : ∀ point, h.races point = []

theorem Calm.of_kept {h h' : Hub} (hc : h.Calm) (hk : h.Kept h') : h'.Calm where
  faults := List.eq_nil_of_subset_nil (hc.faults ▸ hk.faults)
  unarmed := hc.unarmed.of_kept hk
  races point := by rw [hk.races, hc.races]

theorem Calm.within {h : Hub} (hc : h.Calm) (own : Watcher → Bool) : (h.within own).Calm :=
  ⟨hc.faults, hc.unarmed, hc.races⟩

/-- Telling a cache changes it. -/
theorem tell_cache (e : Event) (id : Nat) (h : Hub) :
    tell e (.cache id) h = (h.changeCache id fun c l => c.receive (.cache id) e l, none) := by
  rw [tell, changeCache]
  split <;> rfl

/-- Telling one of them is the same with nobody else there. -/
theorem within_tell {w : Watcher} (hw : own w = true) (e : Event) (h : Hub) :
    (tell e w h).1.within own = (tell e w (h.within own)).1 := by
  cases w with
  | recorder name =>
    rw [tell, tell]
    have harmed : (h.within own).armed = h.armed := rfl
    simp only [harmed]
    split <;> simp [within, hw]
  | cache id =>
    rw [tell_cache, tell_cache]
    exact within_changeCache hw (Cache.receive_within hw e) h

/-- Telling one of the others is not seen. -/
theorem Calm.within_tell_of_not {w : Watcher} (hw : own w = false) (e : Event) {h : Hub}
    (hc : h.Calm) : (tell e w h).1.within own = h.within own := by
  cases w with
  | recorder name =>
    rw [tell, if_neg (by exact hc.unarmed name)]
    simp [Hub.within, hw]
  | cache id =>
    rw [tell_cache]
    exact within_changeCache_of_not hw fun c => Cache.unseen_receive hw e c hc.faults

/-- **A round of telling**, as some watchers have it, tells those of them that are to be told. -/
theorem Calm.within_tellAll (e : Event) : ∀ (ws : List Watcher) {h : Hub}, h.Calm →
    (tellAll e ws h).1.within own = (tellAll e (ws.filter own) (h.within own)).1
  | [], _, _ => rfl
  | w :: ws, h, hc => by
    have hnone : ∀ {g : Hub} {v : Watcher}, g.Calm → (tell e v g).2 = none := fun hg =>
      Option.eq_none_iff_forall_ne_some.mpr fun name hbreak => hg.unarmed name (armed_of_tell hbreak)
    rw [tellAll_cons, if_pos (hnone hc), Calm.within_tellAll e ws (hc.of_kept (kept_tell e w h))]
    cases hw : own w with
    | true =>
      rw [List.filter_cons_of_pos hw, tellAll_cons, if_pos (hnone (hc.within own)),
        within_tell hw]
    | false => rw [List.filter_cons_of_neg (by simp [hw]), hc.within_tell_of_not hw]

/-- **A delivery**, as some watchers have it, is the one that there is with nobody else there. -/
theorem Calm.within_deliver : ∀ (es : List Event) {h : Hub}, h.Calm →
    (deliver es h).1.within own = (deliver es (h.within own)).1
  | [], _, _ => rfl
  | e :: es, h, hc => by
    have hstore : (h.within own).store = h.store.within own := rfl
    rw [hc.unarmed.deliver_cons, (hc.within own).unarmed.deliver_cons, hstore,
      Store.watchersOf_within, ← hc.within_tellAll e]
    exact Calm.within_deliver es (hc.of_kept (kept_tellAll e _ h))

/-- **A write is the same with nobody else there**: it has the same result, and leads to what some
watchers have of the hub that it leads to otherwise. -/
theorem Calm.write_within {h : Hub} (hc : h.Calm) (w : Write) :
    (h.within own).write w = ((h.write w).1, (h.write w).2.within own) := by
  have heffect : (h.within own).store.effect w
      = (h.store.effect w).map fun f => { f with store := f.store.within own } :=
    Store.effect_within h.store w
  obtain ⟨e, he, hwrite⟩ | ⟨f, he, -⟩ := write_cases w h
  · rw [he] at heffect
    rw [hwrite, write, heffect]
    rfl
  · rw [he] at heffect
    have hdone : Calm { h with link.store := f.store } := ⟨hc.faults, hc.unarmed, hc.races⟩
    rw [hc.unarmed.write_of_effect he, (hc.within own).unarmed.write_of_effect heffect]
    refine Prod.ext rfl ?_
    exact (hdone.within_deliver f.events).symm

theorem Calm.write {h : Hub} (hc : h.Calm) (w : Write) : (h.write w).2.Calm := by
  obtain ⟨e, -, he⟩ | ⟨f, -, he⟩ := write_cases w h
  · rwa [he]
  · have hdone : Calm { h with link.store := f.store } := ⟨hc.faults, hc.unarmed, hc.races⟩
    rw [he]
    exact hdone.of_kept (kept_deliver _ _)

end Hub

end Gatekeeper
