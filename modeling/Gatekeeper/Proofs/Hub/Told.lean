import Gatekeeper.Proofs.Hub.Account
import Gatekeeper.Proofs.Hub.Lasting

/-!
# Proofs/Hub/Told — who is told of what by a write, and in what order

Nobody breaks off where no recorder is armed, and then a delivery is nothing but one telling after
another.  `Hub.tellings` lists them, and `Hub.told` those of a write; the delivery does just these
(`Unarmed.deliver_eq`), and what recorders hear is read off the list (`heard_foldl`).

Those who are told may register for more while a write is being delivered, and a cache takes a
registration back when it is told of a deletion.  Neither makes anyone miss an event or be told of it
twice: whoever is registered for a topic once is told of a write what there is to tell
(`regarding_told`).  The order of the tellings is that of what was done: a creation tells of the
parent's children first, a deletion of the node first, and what does not change the children does not
tell of them (`Unarmed.orderly`).
-/

namespace Gatekeeper

open Std (ExtTreeMap)

/-! ## Registrations -/

/-- How often a watcher is registered for a topic. -/
def Store.registrations (s : Store) (w : Watcher) : Topic → Nat
  | .children path => s.childWatches.entries.count (path, w)
  | .data path => s.dataWatches.entries.count (path, w)

/-- Who is registered does not depend on the nodes. -/
theorem Store.registrations_withNodes (s : Store) (nodes : ExtTreeMap String Record) (v : Watcher)
    (t : Topic) : { s with nodes }.registrations v t = s.registrations v t := by
  cases t <;> rfl

theorem Store.after_registrations (s : Store) (w : Write) (v : Watcher) (t : Topic) :
    (s.after w).registrations v t = s.registrations v t := by
  rw [Store.after]
  split
  · next effect heff => rw [Store.effect_store heff, registrations_withNodes]
  · rfl

theorem Store.count_watchersOf (s : Store) (e : Event) (w : Watcher) :
    (s.watchersOf e).count w = s.registrations w e.topic := by
  cases e <;> exact Watches.count_forPath

theorem Link.Beside.registrations {w : Watcher} {l l' : Link} (h : l.Beside w l') (t : Topic) :
    l'.store.registrations w t = l.store.registrations w t := by
  cases t with
  | children path => exact h.childWatches path
  | data path => exact h.dataWatches path

/-- Registering once more for a record costs nobody a registration, and gives nobody a second. -/
theorem Link.registrations_watchData {v w : Watcher} {t : Topic} {l : Link} (path : String)
    (hone : l.store.registrations w t = 1) :
    (l.watchData path v).store.registrations w t = 1 := by
  cases t with
  | children q => exact hone
  | data q =>
    have hcount := Watches.count_entries_add l.store.dataWatches path v (q, w)
    rw [Store.registrations] at hone
    rw [hone] at hcount
    exact hcount.trans (by split <;> rfl)

theorem Cache.registrations_trackChild {v w : Watcher} {t : Topic} (name : String) (c : Cache)
    {l : Link} (hone : l.store.registrations w t = 1) :
    (trackChild v name c l).2.store.registrations w t = 1 := by
  rw [trackChild]
  split
  · exact hone
  · rw [load_snd, Link.get_snd]
    exact Link.registrations_watchData _ hone

theorem Cache.registrations_track {v w : Watcher} {t : Topic} : ∀ (names : List String) (c : Cache)
    (l : Link), l.store.registrations w t = 1 →
      (track v names c l).2.store.registrations w t = 1
  | [], _, _, hone => hone
  | name :: names, c, _, hone =>
    registrations_track names _ _ (registrations_trackChild name c hone)

/-- What a cache does when it is told of an event costs nobody a registration, but for its own for a
node that was deleted. -/
theorem Cache.registrations_receive {v w : Watcher} {t : Topic} {e : Event} {c : Cache} {l : Link}
    (hone : l.store.registrations w t = 1) (hspared : ∀ path, e = .deleted path → t ≠ .data path) :
    (c.receive v e l).2.store.registrations w t = 1 := by
  cases e with
  | children path names =>
    rw [receive]
    split
    · exact registrations_track names c l hone
    · exact hone
  | changed path r => exact hone
  | deleted path =>
    cases t with
    | children q => exact hone
    | data q =>
      refine (Watches.count_entries_drop ..).trans ((if_neg fun heq => ?_).trans hone)
      exact hspared path rfl (congrArg Topic.data (Prod.ext_iff.mp heq).1)

/-! ## Tellings -/

namespace Hub

/-- The hub once someone has been told of something. -/
def afterTelling (h : Hub) (x : Watcher × Event) : Hub := (tell x.2 x.1 h).1

/-- Who is told of events that are delivered, one after another, if nobody breaks off. -/
def tellings : List Event → Hub → List (Watcher × Event)
  | [], _ => []
  | e :: es, h =>
    (h.store.watchersOf e).map (·, e)
      ++ tellings es (((h.store.watchersOf e).map (·, e)).foldl afterTelling h)

/-- What recorders hear in tellings. -/
def hearing (xs : List (Watcher × Event)) : List (String × Event) :=
  xs.filterMap fun
    | (.recorder name, e) => some (name, e)
    | (.cache _, _) => none

/-- The events of a topic that a watcher is told of. -/
def regarding (w : Watcher) (t : Topic) (xs : List (Watcher × Event)) : List Event :=
  (xs.filter fun x => x.1 = w ∧ x.2.topic = t).map Prod.snd

variable {h : Hub}

theorem Unarmed.tellAll_eq (e : Event) : ∀ (ws : List Watcher) {h : Hub}, h.Unarmed →
    (Hub.tellAll e ws h).1 = (ws.map (·, e)).foldl afterTelling h
  | [], _, _ => rfl
  | w :: ws, h, hu => by
    have hnone : (tell e w h).2 = none :=
      Option.eq_none_iff_forall_ne_some.mpr fun name hbreak => hu name (armed_of_tell hbreak)
    rw [tellAll_cons, if_pos hnone, Unarmed.tellAll_eq e ws (hu.of_kept (kept_tell e w h))]
    rfl

/-- **A delivery is one telling after another.** -/
theorem Unarmed.deliver_eq : ∀ (es : List Event) {h : Hub}, h.Unarmed →
    (Hub.deliver es h).1 = (tellings es h).foldl afterTelling h
  | [], _, _ => rfl
  | e :: es, h, hu => by
    have hround := hu.of_kept (kept_tellAll e (h.store.watchersOf e) h)
    rw [hu.deliver_cons, hround.deliver_eq es, tellings, List.foldl_append,
      hu.tellAll_eq e]

/-- A telling is heard by the recorder that is told, if it is one. -/
theorem heard_afterTelling (h : Hub) (x : Watcher × Event) :
    (h.afterTelling x).heard = h.heard ++ hearing [x] := by
  obtain ⟨w, e⟩ := x
  cases w with
  | recorder name =>
    rw [afterTelling, tell]
    split <;> rfl
  | cache id =>
    rw [afterTelling, tell]
    split <;> exact (List.append_nil _).symm

/-- **What recorders hear is what they are told.** -/
theorem heard_foldl : ∀ (xs : List (Watcher × Event)) (h : Hub),
    (xs.foldl afterTelling h).heard = h.heard ++ hearing xs
  | [], h => (List.append_nil _).symm
  | x :: xs, h => by
    rw [List.foldl_cons, heard_foldl xs, heard_afterTelling, List.append_assoc, hearing, hearing,
      hearing, ← List.filterMap_append, List.singleton_append]

/-- No telling touches the registrations of a recorder. -/
theorem beside_afterTelling (h : Hub) (x : Watcher × Event) (name : String) :
    h.link.Beside (.recorder name) (h.afterTelling x).link := by
  obtain ⟨w, e⟩ := x
  cases w with
  | recorder n =>
    rw [afterTelling, tell]
    split <;> exact .refl _ _
  | cache id =>
    rw [afterTelling, tell]
    split
    · exact .refl _ _
    · exact Cache.beside_receive (by simp) e _ h.link

theorem beside_foldl (name : String) : ∀ (xs : List (Watcher × Event)) (h : Hub),
    h.link.Beside (.recorder name) (xs.foldl afterTelling h).link
  | [], _ => .refl _ _
  | x :: xs, h => (beside_afterTelling h x name).trans (beside_foldl name xs _)

/-! ## What a watcher is told -/

theorem regarding_append (w : Watcher) (t : Topic) (xs ys : List (Watcher × Event)) :
    regarding w t (xs ++ ys) = regarding w t xs ++ regarding w t ys := by
  rw [regarding, List.filter_append, List.map_append]
  rfl

/-- In a round of telling a watcher is told as often as it is among the watchers. -/
theorem regarding_map (w : Watcher) (t : Topic) (e : Event) (ws : List Watcher) :
    regarding w t (ws.map (·, e)) = if e.topic = t then List.replicate (ws.count w) e else [] := by
  induction ws with
  | nil => simp [regarding]
  | cons v ws ih =>
    rw [List.map_cons, ← List.singleton_append, regarding_append, ih]
    by_cases ht : e.topic = t <;> by_cases hv : v = w <;>
      simp [regarding, ht, hv, List.replicate_succ]

/-- A telling costs nobody a registration, but for a cache that is told of a deletion. -/
theorem registrations_afterTelling {v : Watcher} {t : Topic} (x : Watcher × Event)
    (hone : h.store.registrations v t = 1)
    (hspared : ∀ path, x.2 = .deleted path → t ≠ .data path) :
    (h.afterTelling x).store.registrations v t = 1 := by
  obtain ⟨w, e⟩ := x
  cases w with
  | recorder name =>
    rw [afterTelling, tell]
    split <;> exact hone
  | cache id =>
    rw [afterTelling, tell]
    split
    · exact hone
    · exact Cache.registrations_receive hone hspared

theorem registrations_foldl {v : Watcher} {t : Topic} {e : Event}
    (hspared : ∀ path, e = .deleted path → t ≠ .data path) : ∀ (ws : List Watcher) {h : Hub},
    h.store.registrations v t = 1 →
      ((ws.map (·, e)).foldl afterTelling h).store.registrations v t = 1
  | [], _, hone => hone
  | w :: ws, _, hone =>
    registrations_foldl hspared ws (registrations_afterTelling (w, e) hone hspared)

/-- Nobody is told of what is not delivered. -/
theorem mem_of_mem_tellings {x : Watcher × Event} : ∀ {es : List Event} {h : Hub},
    x ∈ tellings es h → x.2 ∈ es
  | e :: es, h, hx => by
    obtain hx | hx := List.mem_append.mp hx
    · obtain ⟨w, -, rfl⟩ := List.mem_map.mp hx
      exact List.mem_cons_self
    · exact List.mem_cons_of_mem _ (mem_of_mem_tellings hx)

/-- **Whoever is registered for a topic once is told of each of its events once**, if a deletion is
the last of them. -/
theorem tellings_regarding {v : Watcher} {t : Topic} : ∀ {es : List Event} {h : Hub},
    (es.Pairwise fun e e' => ∀ path, e = .deleted path → t = .data path → e'.topic ≠ t) →
    h.store.registrations v t = 1 → regarding v t (tellings es h) = es.filter (·.topic = t)
  | [], _, _, _ => rfl
  | e :: es, h, hes, hone => by
    obtain ⟨hlast, hes⟩ := List.pairwise_cons.mp hes
    rw [tellings, regarding_append, regarding_map, Store.count_watchersOf, List.filter_cons]
    by_cases hdel : ∃ path, e = .deleted path ∧ t = .data path
    · -- the cache that was told may be registered no longer, but nothing more is to come
      obtain ⟨path, rfl, rfl⟩ := hdel
      have hnone : ∀ e' ∈ es, e'.topic ≠ .data path := fun e' he' => hlast e' he' path rfl rfl
      rw [regarding, List.filter_eq_nil_iff.mpr fun x hx => by
          simpa using fun _ => hnone _ (mem_of_mem_tellings hx),
        List.filter_eq_nil_iff.mpr fun e' he' => by simpa using hnone e' he']
      simp [Event.topic, hone]
    · have hspared : ∀ path, e = .deleted path → t ≠ .data path := fun path he ht =>
        hdel ⟨path, he, ht⟩
      rw [tellings_regarding hes (registrations_foldl hspared _ hone)]
      by_cases ht : e.topic = t
      · simp [ht, hone]
      · simp [ht]

/-- What a recorder has heard of a topic. -/
def heardOn (name : String) (t : Topic) (h : Hub) : List Event :=
  (h.heard.filter fun x => x.1 = name ∧ x.2.topic = t).map Prod.snd

/-- What a recorder hears of a topic in tellings is what it is told of it. -/
theorem heardOn_foldl (name : String) (t : Topic) (xs : List (Watcher × Event)) (h : Hub) :
    heardOn name t (xs.foldl afterTelling h)
      = heardOn name t h ++ regarding (.recorder name) t xs := by
  have hhearing : ((hearing xs).filter fun x => x.1 = name ∧ x.2.topic = t).map Prod.snd
      = regarding (.recorder name) t xs := by
    induction xs with
    | nil => rfl
    | cons x xs ih =>
      rw [← List.singleton_append, regarding_append, ← ih, hearing, List.filterMap_append,
        List.filter_append, List.map_append]
      congr 1
      obtain ⟨w, e⟩ := x
      cases w with
      | recorder n => by_cases hx : n = name ∧ e.topic = t <;> simp [regarding, hx]
      | cache id => simp [regarding]
  rw [heardOn, heard_foldl, List.filter_append, List.map_append, hhearing, heardOn]

/-! ## What a write tells -/

/-- Who is told of what by a write, if nobody breaks off. -/
def told (w : Write) (h : Hub) : List (Watcher × Event) :=
  match h.store.effect w with
  | .error _ => []
  | .ok effect => tellings effect.events { h with link.store := effect.store }

/-- **A write puts its effect in place and tells of it.** -/
theorem Unarmed.write_eq (hu : h.Unarmed) (w : Write) :
    (h.write w).2 = (h.told w).foldl afterTelling { h with link.store := h.store.after w } := by
  obtain ⟨e, herr, he⟩ | ⟨effect, heff, he⟩ := write_cases w h
  · rw [he, told, herr, Store.after_of_error herr]
    rfl
  · rw [he, told, heff, Store.after_of_effect heff]
    exact Unarmed.deliver_eq (h := { h with link.store := effect.store }) effect.events hu

/-- A write leaves the registrations of recorders alone. -/
theorem Unarmed.write_registrations (hu : h.Unarmed) (w : Write) (name : String) (t : Topic) :
    (h.write w).2.store.registrations (.recorder name) t
      = h.store.registrations (.recorder name) t := by
  rw [hu.write_eq w]
  refine ((beside_foldl name _ _).registrations t).trans ?_
  rw [Store.after_registrations]

/-- The result of a write that nobody breaks off says whether there was anything to do. -/
theorem Unarmed.write_fst (hu : h.Unarmed) {w : Write} {effect : Effect}
    (heff : h.store.effect w = .ok effect) : (h.write w).1 = .ok effect.done :=
  congrArg Prod.fst (hu.write_of_effect heff)

/-- **Whoever is registered for a topic once is told of a write what there is to tell of its
deed.** -/
theorem Unarmed.regarding_told (hu : h.Unarmed) {v : Watcher} {t : Topic} (ht : t.Bare) {w : Write}
    (hw : w.IsGenuine) (hone : h.store.registrations v t = 1) (caches : ExtTreeMap Nat Cache) :
    regarding v t (h.told w) = t.events h.store (Deed.of w (h.write w).1 caches) := by
  obtain ⟨e, herr, he⟩ | ⟨effect, heff, -⟩ := write_cases w h
  · rw [told, herr, he, Deed.of_eq_nil rfl, t.events_nil]
    rfl
  · have hone' : effect.store.registrations v t = 1 := by
      rw [← Store.after_of_effect heff, Store.after_registrations, hone]
    rw [hu.write_fst heff, ← Topic.events_write ht hw heff, told, heff]
    exact tellings_regarding (h := { h with link.store := effect.store })
      (Store.effect_events heff t) hone'

/-- A recorder hears of a write what it is told. -/
theorem Unarmed.heardOn_write (hu : h.Unarmed) (w : Write) (name : String) (t : Topic) :
    heardOn name t (h.write w).2
      = heardOn name t h ++ regarding (.recorder name) t (h.told w) := by
  rw [hu.write_eq w, heardOn_foldl]
  rfl

/-! ## In what order a write tells -/

theorem tellings_append : ∀ (es fs : List Event) (h : Hub),
    tellings (es ++ fs) h = tellings es h ++ tellings fs ((tellings es h).foldl afterTelling h)
  | [], _, _ => rfl
  | e :: es, fs, h => by
    rw [List.cons_append, tellings, tellings_append es fs, tellings, List.foldl_append,
      List.append_assoc]

/-- Events that come first are told of first. -/
theorem told_of_append {w : Write} {s : Store} {es fs : List Event} {done : Bool}
    (heff : h.store.effect w = .ok ⟨s, es ++ fs, done⟩) :
    ∃ xs ys, h.told w = xs ++ ys ∧ (∀ x ∈ xs, x.2 ∈ es) ∧ ∀ x ∈ ys, x.2 ∈ fs := by
  rw [told, heff]
  exact ⟨_, _, tellings_append es fs _, fun _ => mem_of_mem_tellings, fun _ => mem_of_mem_tellings⟩

/-- **In what order writes tell**, and whom they do not tell. -/
structure Orderly (h : Hub) : Prop where
  /-- A write puts its effect in place and then tells, one after another. -/
  write : ∀ w,
    (h.write w).2 = (h.told w).foldl afterTelling { h with link.store := h.store.after w }
  /-- Whoever is registered for a topic once is told what there is to tell of the deed. -/
  once : ∀ w v (t : Topic), w.IsGenuine → t.Bare → h.store.registrations v t = 1 →
    ∀ caches, regarding v t (h.told w) = t.events h.store (Deed.of w (h.write w).1 caches)
  /-- Of a creation that is rejected nobody is told. -/
  rejected : ∀ path r, path ∈ h.store.nodes →
    h.write (.create path r) = (.error (.store (.nodeExists path)), h) ∧
      h.told (.create path r) = []
  /-- Of the deletion of what is not there nobody is told. -/
  absent : ∀ path, path ∉ h.store.nodes →
    h.write (.remove path) = (.ok false, h) ∧ h.told (.remove path) = []
  /-- When a record is written over, nobody is told of children. -/
  overwritten : ∀ path r, path ∈ h.store.nodes → ∀ x ∈ h.told (.set path r), x.2 = .changed path r
  /-- A creation tells of the parent's children, and then of the node. -/
  created : ∀ w path r, w = .create path r ∨ w = .set path r → path ∉ h.store.nodes →
    ∃ kids data, h.told w = kids ++ data ∧
      (∀ x ∈ kids, ∃ parent, Path.parent? path = some parent ∧
        x.2 = .children parent ((h.store.put path r).children parent)) ∧
      ∀ x ∈ data, x.2 = .changed path r
  /-- A deletion tells of the node, and then of the parent's children. -/
  removed : ∀ path, path ∈ h.store.nodes →
    ∃ data kids, h.told (.remove path) = data ++ kids ∧
      (∀ x ∈ data, x.2 = .deleted path) ∧
      ∀ x ∈ kids, ∃ parent, Path.parent? path = some parent ∧
        x.2 = .children parent ((h.store.delete path).children parent)

/-- **Where nobody breaks off, writes tell in order.** -/
theorem Unarmed.orderly (hu : h.Unarmed) : h.Orderly where
  write := hu.write_eq
  once _ _ _ hw ht hone := hu.regarding_told ht hw hone
  rejected path r hin := by
    have herr : h.store.effect (.create path r) = .error (.nodeExists path) := by
      rw [Store.effect, if_pos hin]
    exact ⟨by rw [Hub.write, herr], by rw [told, herr]⟩
  absent path hout := by
    have heff : h.store.effect (.remove path) = .ok ⟨h.store, [], false⟩ := by
      rw [Store.effect, if_neg hout]
    exact ⟨by rw [Hub.write, heff]; rfl, by rw [told, heff]; rfl⟩
  overwritten path r hin x hx := by
    have heff : h.store.effect (.set path r) = .ok ⟨h.store.put path r, [.changed path r], true⟩ := by
      simp only [Store.effect, if_pos hin, List.nil_append]
    rw [told, heff] at hx
    exact List.mem_singleton.mp (mem_of_mem_tellings hx)
  created w path r hw hout := by
    have heff : h.store.effect w = .ok
        ⟨h.store.put path r, (h.store.put path r).siblingEvent path ++ [.changed path r], true⟩ := by
      obtain rfl | rfl := hw <;> simp only [Store.effect, if_neg hout]
    obtain ⟨kids, data, htold, hkids, hdata⟩ := told_of_append heff
    exact ⟨kids, data, htold, fun x hx => Store.mem_siblingEvent.mp (hkids x hx),
      fun x hx => List.mem_singleton.mp (hdata x hx)⟩
  removed path hin := by
    have heff : h.store.effect (.remove path) = .ok
        ⟨h.store.delete path, [.deleted path] ++ (h.store.delete path).siblingEvent path, true⟩ := by
      rw [Store.effect, if_pos hin]
      rfl
    obtain ⟨data, kids, htold, hdata, hkids⟩ := told_of_append heff
    exact ⟨data, kids, htold, fun x hx => List.mem_singleton.mp (hdata x hx),
      fun x hx => Store.mem_siblingEvent.mp (hkids x hx)⟩

end Hub

end Gatekeeper
