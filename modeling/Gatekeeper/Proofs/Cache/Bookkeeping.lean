import Gatekeeper.Proofs.Cache.Upkeep

/-!
# Proofs/Cache/Bookkeeping — the registrations of a cache are what its own books say

`Run.booked`: a cache is registered for the record of a child just if it watches the child, once and
for nothing else; it is registered for the children of its parent at most once; and it holds nothing
of a child that it does not watch (`Booked`).  This is so at every point of a run in which calls may
fail and events may be made up, as long as nobody breaks off and no child that is reported has a
separator in its name.

That a cache is registered at most once for anything does not even need that (`lasting_single`),
and where it is registered is what every steady cache keeps up, by a reading that says nothing of
the entries (`lasting_silent`).
-/

namespace Gatekeeper

open Std (ExtTreeMap)
open Hub

/-! ## At most one registration -/

/-- The cache is registered at most once for the record of any node, and at most once for children,
those of its parent. -/
structure Single (id : Nat) (c : Cache) (l : Link) : Prop where
  data : ∀ path, l.store.dataWatches.entries.count (path, .cache id) ≤ 1
  children : ∀ path,
    l.store.childWatches.entries.count (path, .cache id) ≤ if path = c.parent then 1 else 0

namespace Cache

variable {w : Watcher}

/-- The watcher is registered at most once for the record of any node. -/
def Once (w : Watcher) (l : Link) : Prop :=
  ∀ path, l.store.dataWatches.entries.count (path, w) ≤ 1

theorem Once.watchData {l : Link} (h : Once w l) (path : String) : Once w (l.watchData path w) := by
  intro q
  rw [Link.watchData, Watches.count_entries_add]
  split
  · exact max_le le_rfl (h q)
  · exact h q

theorem Once.unwatchData {l : Link} (h : Once w l) (path : String) :
    Once w (l.unwatchData path w) := by
  intro q
  rw [Link.unwatchData, Watches.count_entries_drop]
  split
  · exact Nat.zero_le 1
  · exact h q

theorem Once.trackChild {l : Link} (h : Once w l) (name : String) (c : Cache) :
    Once w (Cache.trackChild w name c l).2 := by
  rw [Cache.trackChild]
  split
  · exact h
  · intro q
    rw [load_store]
    exact h.watchData _ q

theorem Once.track : ∀ (names : List String) (c : Cache) {l : Link}, Once w l →
    Once w (Cache.track w names c l).2
  | [], _, _, h => h
  | name :: names, c, _, h => Once.track names _ (h.trackChild name c)

theorem Once.receive {l : Link} (h : Once w l) (e : Event) (c : Cache) :
    Once w (c.receive w e l).2 := by
  cases e with
  | children path names =>
    rw [Cache.receive]
    split
    · exact h.track names c
    · exact h
  | changed path r => exact h
  | deleted path => exact h.unwatchData path

end Cache

variable {z : Limits} {id : Nat}

theorem Single.receive {c : Cache} {l : Link} (h : Single id c l) (e : Event) :
    Single id (c.receive (.cache id) e l).1 (c.receive (.cache id) e l).2 where
  data := Cache.Once.receive h.data e c
  children path := by
    rw [Cache.childWatches_receive, (Cache.akin_receive _ e c l).parent_eq]
    exact h.children path

theorem lasting_single (z : Limits) (id : Nat) : Lasting z id fun _ => Single id where
  stable _ c l l' hl h :=
    ⟨fun path => (hl.dataWatches path).trans_le (h.data path),
      fun path => (hl.childWatches path).trans_le (h.children path)⟩
  fresh parent vault order := by
    constructor <;> simp [Link.empty, Store.empty, Watches.empty]
  fault _ _ h := ⟨h.data, h.children⟩
  write {_ _ w} _ _ ih := by
    refine ih.write_of_leads (fun c l l' hl h => ?_) (fun e _ _ h => h.receive e)
      (fun _ _ _ h => ⟨h.data, h.children⟩) w
    exact ⟨fun path => (hl.dataWatches path).trans_le (h.data path),
      fun path => (hl.childWatches path).trans_le (h.children path)⟩
  register {_ c l} h := by
    refine ⟨h.data, fun path => ?_⟩
    rw [Link.watchChildren, Watches.count_entries_add]
    have hpath := h.children path
    by_cases hp : path = c.parent
    · simp only [hp, ↓reduceIte] at hpath ⊢
      exact max_le le_rfl hpath
    · simpa [hp] using hpath
  giveUp h := ⟨h.data, h.children⟩
  settle {_ c l names} _ _ h := by
    refine ⟨Cache.Once.track names c h.data, fun path => ?_⟩
    rw [Cache.childWatches_track]
    exact (h.children path).trans_eq (by rw [(Cache.akin_track _ names c l).parent_eq])

/-! ## Watches and registrations -/

/-- The event reports no child with a separator in its name. -/
def Event.NamesSegments : Event → Prop
  | .children _ names => ∀ n ∈ names, Path.IsSegment n
  | _ => True

/-- If the write is an event that is made up, it reports no child with a separator in its name. -/
def Write.NamesSegments : Write → Prop
  | .notify e => e.NamesSegments
  | _ => True

/-- Events may be made up that name segments, and some calls have faults; listeners do not break
off. -/
def Limits.wellNamed (faults : Call → Prop) : Limits := ⟨Write.NamesSegments, False, faults⟩

theorem Store.namesSegments_siblingEvent (s : Store) (path : String) :
    ∀ e ∈ s.siblingEvent path, e.NamesSegments := by
  intro e he
  rw [siblingEvent] at he
  split at he
  · obtain rfl := List.mem_singleton.mp he
    exact fun n hn => (mem_children.mp hn).1
  · cases he

/-- The store itself reports segments alone. -/
theorem Store.namesSegments_of_effect {s : Store} {w : Write} {effect : Effect}
    (hw : w.NamesSegments) (h : s.effect w = .ok effect) :
    ∀ e ∈ effect.events, e.NamesSegments := by
  intro e he
  obtain ⟨path, r, -, rfl⟩ | ⟨path, -, rfl⟩ | ⟨path, -, -, rfl⟩ | ⟨e', rfl, rfl⟩ := effect_cases h
  · obtain he | he := List.mem_append.mp he
    · split at he
      · cases he
      · exact namesSegments_siblingEvent _ path e he
    · obtain rfl := List.mem_singleton.mp he
      trivial
  · obtain rfl | he := List.mem_cons.mp he
    · trivial
    · exact namesSegments_siblingEvent _ path e he
  · cases he
  · obtain rfl := List.mem_singleton.mp he
    exact hw

/-- The reading that says nothing of the entries. -/
def silent : Reading := fun _ _ _ _ _ => True

section Silent

variable {parent : String} {vault : Vault} {h : Hub}

/-- The cache follows, whatever it holds and whatever it watches. -/
abbrev Heeds (id : Nat) (parent : String) (vault : Vault) : Cache → Link → Prop :=
  Keeps id parent vault (fun _ => False) (fun _ _ => True) (fun _ => False) fun _ _ => True

theorem heeds_tellAll (hu : h.Unarmed) {e : Event} (he : e.NamesSegments)
    (hk : Holds id (Heeds id parent vault) h) :
    Holds id (Heeds id parent vault) (tellAll e (h.store.watchersOf e) h).1 := by
  cases e with
  | children path names =>
    refine (keeps_children hu (fun _ hn => hn) (fun _ _ hx => hx) he hk).imp fun c l hk => ?_
    exact ⟨hk.1.mono (fun _ hn => hn.elim) fun _ _ _ hx => hx, hk.2⟩
  | changed path r =>
    exact keeps_changed hu (fun _ _ hx => hx) (fun _ _ _ hx => hx) (fun _ _ _ hx => hx) hk
  | deleted path => exact (keeps_deleted hu (fun _ _ hn => hn) hk).imp fun _ _ hk => hk.1

theorem heeds_deliver : ∀ (es : List Event) {h : Hub}, h.Unarmed → (∀ e ∈ es, e.NamesSegments) →
    Holds id (Heeds id parent vault) h → Holds id (Heeds id parent vault) (deliver es h).1
  | [], _, _, _, hk => hk
  | e :: es, h, hu, hes, hk => by
    rw [hu.deliver_cons]
    exact heeds_deliver es (hu.of_kept (kept_tellAll e _ h))
      (fun e he => hes e (List.mem_cons_of_mem _ he))
      (heeds_tellAll hu (hes e List.mem_cons_self) hk)

theorem heeds_write (hu : h.Unarmed) {w : Write} (hw : w.NamesSegments)
    (hk : Holds id (Heeds id parent vault) h) : Holds id (Heeds id parent vault) (h.write w).2 := by
  obtain ⟨e, -, he⟩ | ⟨effect, heff, he⟩ := write_cases w h
  · rwa [he]
  · rw [he]
    have hk' : Holds id (Heeds id parent vault) { h with link.store := effect.store } := by
      intro c hc
      rw [Store.effect_store heff]
      exact ⟨{ (hk c hc).1 with }, fun _ _ _ => trivial, fun _ _ _ => trivial⟩
    exact heeds_deliver (h := { h with link.store := effect.store }) effect.events hu
      (Store.namesSegments_of_effect hw heff) hk'

end Silent

/-- **Every cache is steady in a reading that says nothing**, also where events are made up. -/
theorem lasting_silent (faults : Call → Prop) (id : Nat) :
    Lasting (.wellNamed faults) id (silent.Steady · id) where
  stable _ := stable_steady
  fresh := Reading.Lawful.steady_fresh lawful_true
  fault _ _ hs := ⟨{ hs.1 with }, hs.2.fresh, fun _ _ _ => trivial⟩
  write {log h w} hc hw ih := by
    cases hid : h.caches[id]? with
    | none => exact holds_write_of_none hid w _
    | some c =>
      have hk : Holds id (Heeds id c.parent c.vault) h :=
        holds_of_some hid ⟨(ih c hid).1.mono (fun _ hn => hn.elim) fun _ _ _ _ => trivial,
          fun _ _ _ => trivial, fun _ _ _ => trivial⟩
      exact (heeds_write (hc.permitted.unarmed not_false) hw hk).imp fun c' l hk =>
        .of_keeps hk fun _ hn => hn
  register hs := hs.enter .syncing _ rfl rfl rfl fun _ => by simp [Link.watchChildren]
  giveUp hs := hs.enter .uninitialized _ rfl rfl rfl fun hp => absurd rfl hp
  settle hphase hnames hs := hs.settle (by simp [hphase]) hnames

/-- **The registrations of a cache are what its books say.** -/
structure Booked (id : Nat) (c : Cache) (s : Store) : Prop where
  /-- It is registered for the record of a child just if it watches the child, -/
  watched : ∀ name, name ∈ c.watched ↔ .cache id ∈ s.dataWatches.forPath (Path.child c.parent name)
  /-- not more than once for any record, -/
  once : ∀ path, (s.dataWatches.forPath path).count (.cache id) ≤ 1
  /-- and for no record but those of the children that it watches. -/
  home : ∀ path, .cache id ∈ s.dataWatches.forPath path →
    ∃ name ∈ c.watched, path = Path.child c.parent name
  /-- It is registered for children at most once, -/
  childOnce : ∀ path, (s.childWatches.forPath path).count (.cache id) ≤ 1
  /-- and only for those of its parent. -/
  childHome : ∀ path, .cache id ∈ s.childWatches.forPath path → path = c.parent
  /-- What it holds is under the name of a child that it watches. -/
  held : ∀ (d : Component) (k : Identity) (x : Credential), (c.entries.part d)[k]? = some x →
    k.text ∈ c.watched

theorem Booked.of_steady {log : List Deed} {c : Cache} {l : Link}
    (hs : silent.Steady log id c l) (hone : Single id c l) : Booked id c l.store where
  watched name := by rw [Watches.mem_forPath, hs.1.mem_watched_iff]
  once path := by
    rw [Watches.count_forPath]
    exact hone.data path
  home path hp := hs.1.home path (Watches.mem_forPath.mp hp)
  childOnce path := by
    rw [Watches.count_forPath]
    exact (hone.children path).trans (by split <;> simp)
  childHome path hp := by
    by_contra hne
    have hcount := hone.children path
    rw [if_neg hne, Nat.le_zero, List.count_eq_zero] at hcount
    exact hcount (Watches.mem_forPath.mp hp)
  held d k x hx := by
    by_contra hout
    have hget : c.get? k = some x := hs.1.keyed.get?_identity hx
    rw [hs.1.absent k.text hout] at hget
    cases hget

/-- **The registrations of every cache are what its books say**, at every point of a run in which
nobody breaks off and no child that is reported has a separator in its name. -/
theorem Run.booked {faults : Call → Prop} {log : List Deed} {h : Hub}
    (hr : Run (.wellNamed faults) log h) {c : Cache} (hid : h.caches[id]? = some c) :
    Booked id c h.store :=
  .of_steady (hr.course.lasts (lasting_silent faults id) c hid)
    (hr.course.lasts (lasting_single _ id) c hid)

/-- A start fails and is made again, with a race in the middle of it; children are reported that do
not exist, one of them twice; one of them is said to be deleted, and a read fails. -/
def reportedActs : List Act :=
  [.administer sampleAdmin (.addForm (sampleForm "pw")),
    .fault .list (.fails .poisoned), .start 0, .fault .get .absent,
    .await .afterList [.ok (.set "/users/bob_BROKER" (.empty "bob"))], .start 0,
    .write (.notify (.children "/users" ["eve", "ann_BROKER", "eve", "bob_CONTROLLER"])),
    .write (.notify (.deleted "/users/bob_BROKER")), .write (.remove "/users/bob_BROKER")]

/-- The log and the hub after it. -/
def reportedRun : List Deed × Hub := Act.performAll reportedActs [] sampleHub

/-- The cache then watches three children, and is registered for the records of these alone. -/
theorem booked_reported : ∃ c, reportedRun.2.caches[0]? = some c ∧
    c.watched.toList = ["ann_BROKER", "bob_CONTROLLER", "eve"] ∧
      Booked 0 c reportedRun.2.store := by
  have hrun : Run (.wellNamed fun _ => True) reportedRun.1 reportedRun.2 := by
    refine Run.performAll (.initial new_sampleHub) ?_
    simp only [reportedActs, List.forall_mem_cons, List.not_mem_nil, false_imp_iff, implies_true,
      and_true]
    refine ⟨fun w hw => ?_, trivial, trivial, trivial, fun w hw => ?_, trivial, ?_, trivial, trivial⟩
    · have hgenuine := Admin.Task.genuine hw
      cases w with
      | notify e => exact hgenuine.elim
      | _ => trivial
    · obtain rfl : w = .set "/users/bob_BROKER" (.empty "bob") := by simpa using hw
      trivial
    · have hnames : ∀ n ∈ ["eve", "ann_BROKER", "eve", "bob_CONTROLLER"], Path.IsSegment n := by
        decide
      exact hnames
  have hstate : (reportedRun.2.caches[0]?.any fun c =>
      c.watched.toList = ["ann_BROKER", "bob_CONTROLLER", "eve"]) = true := by
    decide +kernel
  obtain ⟨c, hid, hc⟩ := (Option.any_eq_true _ _).mp hstate
  exact ⟨c, hid, by simpa using hc, hrun.booked hid⟩

end Gatekeeper
