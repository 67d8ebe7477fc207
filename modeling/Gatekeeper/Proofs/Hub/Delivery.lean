import Gatekeeper.Hub.Basic
import Mathlib.Data.List.Infix

/-!
# Proofs/Hub/Delivery — what an event does to one of many listeners

A delivery tells many watchers, and each cache among them reads from the link and changes its own
registrations.  What one cache does leaves the link as it was as far as any other watcher is
concerned (`Link.Beside`, `Cache.beside_receive`), and no delivery touches the records, the races or
what came of them (`Hub.Kept`, `kept_deliver`).  A delivery is broken off by nobody but a recorder
that was armed (`armed_of_deliver`).

So one cache can be followed through a delivery on its own.  A property of a cache and its link that
does not depend on the others (`Stable`) is kept by a round of telling if it is kept when the cache
itself is told (`Holds.tellAll`).  What telling the cache establishes holds after the round, if it
held already of a cache that was not to be told (`Holds.round`).
-/

namespace Gatekeeper

/-! ## A link, as one watcher sees it -/

namespace Link

/-- The second link differs from the first at most in the registrations of other watchers, and in
faults that have been used up. -/
structure Beside (w : Watcher) (l l' : Link) : Prop where
  nodes : l'.store.nodes = l.store.nodes
  childWatches : ∀ path, l'.store.childWatches.entries.count (path, w)
    = l.store.childWatches.entries.count (path, w)
  dataWatches : ∀ path, l'.store.dataWatches.entries.count (path, w)
    = l.store.dataWatches.entries.count (path, w)
  faults : l'.faults ⊆ l.faults

theorem Beside.refl (w : Watcher) (l : Link) : l.Beside w l :=
  ⟨rfl, fun _ => rfl, fun _ => rfl, List.Subset.refl _⟩

theorem Beside.trans {w : Watcher} {l₁ l₂ l₃ : Link} (h : l₁.Beside w l₂) (h' : l₂.Beside w l₃) :
    l₁.Beside w l₃ where
  nodes := h'.nodes.trans h.nodes
  childWatches path := (h'.childWatches path).trans (h.childWatches path)
  dataWatches path := (h'.dataWatches path).trans (h.dataWatches path)
  faults := List.Subset.trans h'.faults h.faults

theorem Beside.mem_childWatches {w : Watcher} {l l' : Link} (h : l.Beside w l') {path : String} :
    (path, w) ∈ l'.store.childWatches.entries ↔ (path, w) ∈ l.store.childWatches.entries := by
  rw [← List.count_pos_iff, h.childWatches, List.count_pos_iff]

theorem Beside.mem_dataWatches {w : Watcher} {l l' : Link} (h : l.Beside w l') {path : String} :
    (path, w) ∈ l'.store.dataWatches.entries ↔ (path, w) ∈ l.store.dataWatches.entries := by
  rw [← List.count_pos_iff, h.dataWatches, List.count_pos_iff]

theorem takeFrom_subset (call : Call) : ∀ fs : List (Call × Fault), (takeFrom call fs).2 ⊆ fs
  | [] => List.Subset.refl _
  | (c, f) :: rest => by
    rw [takeFrom]
    split
    · exact List.subset_cons_self _ _
    · exact List.cons_subset_cons _ (takeFrom_subset call rest)

/-- Taking a fault changes nothing else. -/
theorem beside_takeFault (w : Watcher) (l : Link) (call : Call) :
    l.Beside w (l.takeFault call).2 :=
  ⟨rfl, fun _ => rfl, fun _ => rfl, takeFrom_subset call l.faults⟩

theorem failure?_snd (l : Link) (call : Call) : (l.failure? call).2 = (l.takeFault call).2 := by
  rw [failure?]
  split <;> next h => rw [h]

theorem get_snd (l : Link) (path : String) : (l.get path).2 = (l.takeFault .get).2 := by
  rw [get]
  split <;> next h => rw [h]

theorem beside_get (w : Watcher) (l : Link) (path : String) : l.Beside w (l.get path).2 := by
  rw [get_snd]
  exact beside_takeFault w l .get

theorem beside_watchData {v w : Watcher} (h : v ≠ w) (l : Link) (path : String) :
    l.Beside w (l.watchData path v) :=
  ⟨rfl, fun _ => rfl, fun _ => by simp [watchData, Watches.count_entries_add, Ne.symm h],
    List.Subset.refl _⟩

theorem beside_unwatchData {v w : Watcher} (h : v ≠ w) (l : Link) (path : String) :
    l.Beside w (l.unwatchData path v) :=
  ⟨rfl, fun _ => rfl, fun _ => by simp [unwatchData, Watches.count_entries_drop, Ne.symm h],
    List.Subset.refl _⟩

theorem beside_watchChildren {v w : Watcher} (h : v ≠ w) (l : Link) (path : String) :
    l.Beside w (l.watchChildren path v) :=
  ⟨rfl, fun _ => by simp [watchChildren, Watches.count_entries_add, Ne.symm h], fun _ => rfl,
    List.Subset.refl _⟩

end Link

/-! ## What a cache does to the link -/

namespace Cache

theorem load_snd (c : Cache) (path : String) (l : Link) : (c.load path l).2 = (l.get path).2 := by
  rw [load]
  split <;> next h => rw [h]

theorem beside_trackChild {v w : Watcher} (h : v ≠ w) (name : String) (c : Cache) (l : Link) :
    l.Beside w (trackChild v name c l).2 := by
  rw [trackChild]
  split
  · exact .refl w l
  · rw [load_snd]
    exact (Link.beside_watchData h l _).trans (Link.beside_get w _ _)

theorem beside_track {v w : Watcher} (h : v ≠ w) : ∀ (names : List String) (c : Cache) (l : Link),
    l.Beside w (track v names c l).2
  | [], _, l => .refl w l
  | name :: names, c, l => (beside_trackChild h name c l).trans (beside_track h names _ _)

/-- **What a cache does when it is told of an event leaves alone what others see of the link.** -/
theorem beside_receive {v w : Watcher} (h : v ≠ w) (e : Event) (c : Cache) (l : Link) :
    l.Beside w (c.receive v e l).2 := by
  cases e with
  | children path names =>
    rw [receive]
    split
    · exact beside_track h names c l
    · exact .refl w l
  | changed path r => exact .refl w l
  | deleted path => exact Link.beside_unwatchData h l path

end Cache

/-! ## Delivery, as one cache sees it -/

namespace Hub

/-- The property holds of the cache of this number, if there is one, and of the link. -/
def Holds (id : Nat) (P : Cache → Link → Prop) (h : Hub) : Prop :=
  ∀ c, h.caches[id]? = some c → P c h.link

/-- What others do to the link does not touch the property. -/
def Stable (id : Nat) (P : Cache → Link → Prop) : Prop :=
  ∀ c l l', l.Beside (.cache id) l' → P c l → P c l'

/-- Telling the cache of the event takes the one property to the other. -/
def Leads (id : Nat) (e : Event) (P Q : Cache → Link → Prop) : Prop :=
  ∀ c l, P c l → Q (c.receive (.cache id) e l).1 (c.receive (.cache id) e l).2

variable {id : Nat} {P Q : Cache → Link → Prop}

theorem Holds.imp {h : Hub} (hPQ : ∀ c l, P c l → Q c l) (hP : Holds id P h) : Holds id Q h :=
  fun c hc => hPQ c _ (hP c hc)

/-- A cache that is there has the property. -/
theorem Holds.exists_of_mem {h : Hub} (hP : Holds id P h) (hid : id ∈ h.caches) :
    ∃ c, h.caches[id]? = some c ∧ P c h.link :=
  ⟨_, Std.ExtTreeMap.getElem?_eq_some_iff.mpr ⟨hid, rfl⟩,
    hP _ (Std.ExtTreeMap.getElem?_eq_some_iff.mpr ⟨hid, rfl⟩)⟩

/-- What the cache under a number has, the number has. -/
theorem holds_of_some {h : Hub} {c : Cache} (hid : h.caches[id]? = some c) (hP : P c h.link) :
    Holds id P h := by
  intro c' hc'
  obtain rfl : c = c' := Option.some.inj (hid.symm.trans hc')
  exact hP

theorem Holds.of_beside {h h' : Hub} (hs : Stable id P) (hP : Holds id P h)
    (hc : h'.caches[id]? = h.caches[id]?) (hl : h.link.Beside (.cache id) h'.link) :
    Holds id P h' :=
  fun c hc' => hs c _ _ hl (hP c (hc ▸ hc'))

/-- Telling someone else leaves a cache and its registrations alone. -/
theorem tell_of_ne {w : Watcher} (hw : w ≠ .cache id) (e : Event) (h : Hub) :
    (tell e w h).1.caches[id]? = h.caches[id]?
      ∧ h.link.Beside (.cache id) (tell e w h).1.link := by
  cases w with
  | recorder name =>
    rw [tell]
    split <;> exact ⟨rfl, .refl _ _⟩
  | cache k =>
    have hk : k ≠ id := fun heq => hw (heq ▸ rfl)
    rw [tell]
    split
    · exact ⟨rfl, .refl _ _⟩
    · next c _ =>
      refine ⟨?_, Cache.beside_receive hw e c h.link⟩
      simp [Std.ExtTreeMap.getElem?_insert, hk]

/-- Telling the cache itself does what the cache does. -/
theorem Holds.tell_self {e : Event} (hlead : Leads id e P Q) {h : Hub} (hP : Holds id P h) :
    Holds id Q (Hub.tell e (.cache id) h).1 := by
  intro c hc
  rw [Hub.tell] at hc ⊢
  cases hc₀ : h.caches[id]? with
  | none =>
    simp only [hc₀] at hc
    cases hc
  | some c₀ =>
    simp only [hc₀, Std.ExtTreeMap.getElem?_insert_self, Option.some.injEq] at hc ⊢
    subst hc
    exact hlead c₀ h.link (hP c₀ hc₀)

theorem Holds.tell {e : Event} (hs : Stable id P) (hself : Leads id e P P) {h : Hub}
    (hP : Holds id P h) (w : Watcher) : Holds id P (Hub.tell e w h).1 := by
  by_cases hw : w = .cache id
  · subst hw
    exact hP.tell_self hself
  · obtain ⟨hc, hl⟩ := tell_of_ne hw e h
    exact hP.of_beside hs hc hl

/-- What a round of telling leads to is what its first telling leads to, unless it breaks off
there. -/
theorem tellAll_cons (e : Event) (w : Watcher) (ws : List Watcher) (h : Hub) :
    tellAll e (w :: ws) h =
      if (tell e w h).2 = none then tellAll e ws (tell e w h).1 else tell e w h := by
  rw [tellAll]
  split
  · next heq => simp [heq]
  · next heq => simp [heq]

theorem deliver_cons (e : Event) (es : List Event) (h : Hub) :
    deliver (e :: es) h =
      if (tellAll e (h.store.watchersOf e) h).2 = none
      then deliver es (tellAll e (h.store.watchersOf e) h).1
      else tellAll e (h.store.watchersOf e) h := by
  rw [deliver]
  split
  · next heq => simp [heq]
  · next heq => simp [heq]

/-- Where a delivery is not broken off, none of its rounds is. -/
theorem deliver_of_none {e : Event} {es : List Event} {h : Hub}
    (hnone : (deliver (e :: es) h).2 = none) :
    (Hub.tellAll e (h.store.watchersOf e) h).2 = none ∧
      deliver (e :: es) h = deliver es (Hub.tellAll e (h.store.watchersOf e) h).1 := by
  rw [deliver_cons] at hnone ⊢
  split at hnone
  · next hround => exact ⟨hround, if_pos hround⟩
  · next hround => exact absurd hnone hround

theorem Holds.tellAll {e : Event} (hs : Stable id P) (hself : Leads id e P P) :
    ∀ (ws : List Watcher) {h : Hub}, Holds id P h → Holds id P (Hub.tellAll e ws h).1
  | [], _, hP => hP
  | w :: ws, h, hP => by
    rw [tellAll_cons]
    split
    · exact Holds.tellAll hs hself ws (hP.tell hs hself w)
    · exact hP.tell hs hself w

theorem tellAll_of_not_mem (e : Event) : ∀ {ws : List Watcher} (h : Hub), Watcher.cache id ∉ ws →
    (tellAll e ws h).1.caches[id]? = h.caches[id]?
      ∧ h.link.Beside (.cache id) (tellAll e ws h).1.link
  | [], h, _ => ⟨rfl, .refl _ _⟩
  | w :: ws, h, hmem => by
    obtain ⟨hne, hrest⟩ := not_or.mp (mt List.mem_cons.mpr hmem)
    obtain ⟨hc, hl⟩ := tell_of_ne (Ne.symm hne) e h
    obtain ⟨hc', hl'⟩ := tellAll_of_not_mem e (tell e w h).1 hrest
    rw [tellAll_cons]
    split
    · exact ⟨hc'.trans hc, hl.trans hl'⟩
    · exact ⟨hc, hl⟩

/-- What telling a cache establishes holds once its turn has come, unless the round broke off. -/
theorem Holds.tellAll_of_mem {e : Event} (hPs : Stable id P) (hQs : Stable id Q)
    (hlead : Leads id e P Q) (hback : ∀ c l, Q c l → P c l) :
    ∀ {ws : List Watcher} {h : Hub}, Watcher.cache id ∈ ws → (Hub.tellAll e ws h).2 = none →
      Holds id P h → Holds id Q (Hub.tellAll e ws h).1
  | w :: ws, h, hmem, hnone, hP => by
    have hagain : Leads id e Q Q := fun c l hQ => hlead c l (hback c l hQ)
    rw [tellAll_cons] at hnone ⊢
    split at hnone
    · next hw₀ =>
      rw [if_pos hw₀]
      by_cases hw : w = .cache id
      · subst hw
        exact (hP.tell_self hlead).tellAll hQs hagain ws
      · have hmem' : Watcher.cache id ∈ ws :=
          (List.mem_cons.mp hmem).resolve_left fun heq => hw heq.symm
        obtain ⟨hc, hl⟩ := tell_of_ne hw e h
        exact Holds.tellAll_of_mem hPs hQs hlead hback hmem' hnone (hP.of_beside hPs hc hl)
    · next hw₀ => exact absurd hnone hw₀

/-! ## What a delivery leaves alone -/

/-- The second hub has the records, the races and as many caches as the first; no recorder has been
armed, and no fault added. -/
structure Kept (h h' : Hub) : Prop where
  nodes : h'.store.nodes = h.store.nodes
  present : ∀ id, id ∈ h'.caches ↔ id ∈ h.caches
  races : h'.races = h.races
  raced : h'.raced = h.raced
  armed : ∀ name ∈ h'.armed, name ∈ h.armed
  faults : h'.link.faults ⊆ h.link.faults

theorem Kept.refl (h : Hub) : h.Kept h :=
  ⟨rfl, fun _ => .rfl, rfl, rfl, fun _ hn => hn, List.Subset.refl _⟩

theorem Kept.trans {h₁ h₂ h₃ : Hub} (h : h₁.Kept h₂) (h' : h₂.Kept h₃) : h₁.Kept h₃ where
  nodes := h'.nodes.trans h.nodes
  present id := (h'.present id).trans (h.present id)
  races := h'.races.trans h.races
  raced := h'.raced.trans h.raced
  armed name hn := h.armed name (h'.armed name hn)
  faults := List.Subset.trans h'.faults h.faults

theorem kept_tell (e : Event) (w : Watcher) (h : Hub) : h.Kept (tell e w h).1 := by
  cases w with
  | recorder name =>
    rw [tell]
    split
    · exact ⟨rfl, fun _ => .rfl, rfl, rfl, fun n hn => Std.ExtTreeSet.mem_of_mem_erase hn,
        List.Subset.refl _⟩
    · exact ⟨rfl, fun _ => .rfl, rfl, rfl, fun _ hn => hn, List.Subset.refl _⟩
  | cache k =>
    rw [tell]
    split
    · exact .refl h
    · next c hc =>
      -- a recorder sees of the link all that is claimed here
      have hl := Cache.beside_receive (w := .recorder "") (v := .cache k) (by simp) e c h.link
      have hk : k ∈ h.caches := (Std.ExtTreeMap.getElem?_eq_some_iff.mp hc).1
      refine ⟨hl.nodes, fun id => ?_, rfl, rfl, fun _ hn => hn, hl.faults⟩
      simp only [Std.ExtTreeMap.mem_insert, Std.compare_eq_iff_eq, or_iff_right_iff_imp]
      exact fun heq => heq ▸ hk

theorem kept_tellAll (e : Event) : ∀ (ws : List Watcher) (h : Hub), h.Kept (tellAll e ws h).1
  | [], h => .refl h
  | w :: ws, h => by
    rw [tellAll_cons]
    split
    · exact (kept_tell e w h).trans (kept_tellAll e ws _)
    · exact kept_tell e w h

theorem kept_deliver : ∀ (es : List Event) (h : Hub), h.Kept (deliver es h).1
  | [], h => .refl h
  | e :: es, h => by
    rw [deliver_cons]
    split
    · exact (kept_tellAll e _ h).trans (kept_deliver es _)
    · exact kept_tellAll e _ h

/-- A delivery brings no cache about. -/
theorem exists_of_deliver {es : List Event} {h h₀ h' : Hub} {c' : Cache}
    (hh' : h' = (deliver es h₀).1) (hh : h₀.caches = h.caches)
    (hc' : h'.caches[id]? = some c') : ∃ c, h.caches[id]? = some c := by
  obtain ⟨hin, -⟩ := Std.ExtTreeMap.getElem?_eq_some_iff.mp hc'
  rw [hh', (kept_deliver es h₀).present id, hh] at hin
  exact ⟨_, Std.ExtTreeMap.getElem?_eq_some_iff.mpr ⟨hin, rfl⟩⟩

/-! ## Who breaks a delivery off -/

/-- Whoever breaks off was armed. -/
theorem armed_of_tell {e : Event} {w : Watcher} {h : Hub} {name : String}
    (hbreak : (tell e w h).2 = some name) : name ∈ h.armed := by
  cases w with
  | recorder n =>
    rw [tell] at hbreak
    split at hbreak
    · next hn =>
      cases hbreak
      exact hn
    · cases hbreak
  | cache k =>
    rw [tell] at hbreak
    split at hbreak <;> cases hbreak

theorem armed_of_tellAll {e : Event} {name : String} : ∀ {ws : List Watcher} {h : Hub},
    (tellAll e ws h).2 = some name → name ∈ h.armed
  | w :: ws, h, hbreak => by
    rw [tellAll_cons] at hbreak
    split at hbreak
    · exact (kept_tell e w h).armed name (armed_of_tellAll hbreak)
    · exact armed_of_tell hbreak

theorem armed_of_deliver {name : String} : ∀ {es : List Event} {h : Hub},
    (deliver es h).2 = some name → name ∈ h.armed
  | e :: es, h, hbreak => by
    rw [deliver_cons] at hbreak
    split at hbreak
    · exact (kept_tellAll e _ h).armed name (armed_of_deliver hbreak)
    · exact armed_of_tellAll hbreak

/-! ## Deliveries that nobody breaks off -/

/-- No recorder is armed. -/
def Unarmed (h : Hub) : Prop := ∀ name, name ∉ h.armed

theorem Unarmed.of_kept {h h' : Hub} (hu : h.Unarmed) (hk : h.Kept h') : h'.Unarmed :=
  fun name hn => hu name (hk.armed name hn)

theorem Unarmed.tellAll {h : Hub} (hu : h.Unarmed) (e : Event) (ws : List Watcher) :
    (Hub.tellAll e ws h).2 = none :=
  Option.eq_none_iff_forall_ne_some.mpr fun name hbreak => hu name (armed_of_tellAll hbreak)

theorem Unarmed.deliver {h : Hub} (hu : h.Unarmed) (es : List Event) :
    (Hub.deliver es h).2 = none :=
  Option.eq_none_iff_forall_ne_some.mpr fun name hbreak => hu name (armed_of_deliver hbreak)

theorem Unarmed.deliver_cons {h : Hub} (hu : h.Unarmed) (e : Event) (es : List Event) :
    Hub.deliver (e :: es) h = Hub.deliver es (Hub.tellAll e (h.store.watchersOf e) h).1 :=
  (deliver_of_none (hu.deliver _)).2

theorem Unarmed.deliver_singleton {h : Hub} (hu : h.Unarmed) (e : Event) :
    (Hub.deliver [e] h).1 = (Hub.tellAll e (h.store.watchersOf e) h).1 := by
  rw [hu.deliver_cons]
  rfl

theorem Unarmed.deliver_append : ∀ (es fs : List Event) {h : Hub}, h.Unarmed →
    Hub.deliver (es ++ fs) h = Hub.deliver fs (Hub.deliver es h).1
  | [], _, _, _ => rfl
  | e :: es, fs, h, hu => by
    rw [List.cons_append, hu.deliver_cons, hu.deliver_cons]
    exact Unarmed.deliver_append es fs (hu.of_kept (kept_tellAll e _ h))

/-- **A round of telling that nobody breaks off** establishes what it establishes of a cache that is
told, and what holds of a cache that is not. -/
theorem Holds.round {e : Event} {h : Hub} (hPs : Stable id P) (hQs : Stable id Q)
    (hnone : (Hub.tellAll e (h.store.watchersOf e) h).2 = none)
    (htold : ∀ c, P c h.link → Watcher.cache id ∈ h.store.watchersOf e → Leads id e P Q)
    (huntold : ∀ c, P c h.link → Watcher.cache id ∉ h.store.watchersOf e → Q c h.link)
    (hback : ∀ c l, Q c l → P c l) (hP : Holds id P h) :
    Holds id Q (Hub.tellAll e (h.store.watchersOf e) h).1 := by
  cases hid : h.caches[id]? with
  | none =>
    -- where there is no cache of this number there is none afterwards
    have hno : Holds id (fun _ _ => False) h := fun c hc => by rw [hid] at hc; cases hc
    exact (hno.tellAll (fun _ _ _ _ hf => hf) (fun _ _ hf => hf) _).imp fun _ _ hf => hf.elim
  | some c₀ =>
    by_cases hmem : Watcher.cache id ∈ h.store.watchersOf e
    · exact hP.tellAll_of_mem hPs hQs (htold c₀ (hP c₀ hid) hmem) hback hmem hnone
    · obtain ⟨hc, hl⟩ := tellAll_of_not_mem e h hmem
      have hQ : Holds id Q h := fun c hc' => huntold c (hP c hc') hmem
      exact hQ.of_beside hQs hc hl

end Hub

end Gatekeeper
