import Gatekeeper.Proofs.Cache.Bookkeeping
import Gatekeeper.Proofs.Cache.Convergence
import Gatekeeper.Proofs.Cache.Hearing
import Gatekeeper.Proofs.Hub.Told

/-!
# Proofs/Cache/Exact — what a write makes of a cache that is ready, to the letter

Where nothing fails, a cache that is ready watches all children there are, and is registered once for
each of them and once for their coming and going (`Ready.registrations_eq_one`), and for nothing else
(`Ready.registrations_eq_zero`).  So it is told of a write just what there is to tell of its parent's
children, and of each event once, and it is known what it does then: not only what it holds
afterwards, but also how it came to hold it.

* A record that is written to a child is taken in as it is told of.  If the child was not watched, it
  is watched and loaded before that, so that its record is taken in twice (`Cache.written`).
* A child that is deleted is no longer watched, and forgotten (`Cache.bereft`).
* Whatever else is written, nothing happens.

`Ready.submit` says that this is all.
-/

namespace Gatekeeper

open Std (ExtTreeMap)
open Hub

/-- What a record's writing tells of before the record: if the node is new, of its siblings. -/
def Store.heralds (s : Store) (path : String) (r : Record) : List Event :=
  if path ∈ s.nodes then [] else (s.put path r).siblingEvent path

theorem Store.putEvents_eq (s : Store) (path : String) (r : Record) :
    s.putEvents path r = s.heralds path r ++ [.changed path r] := rfl

/-! ## What there is to do -/

namespace Cache

/-- A cache once a record has been written to a path: it takes the record of a child in, after it has
loaded the child, if it did not watch it. -/
def written (c : Cache) (path : String) (r : Record) : Cache :=
  match Path.childName? c.parent path with
  | none => c
  | some name =>
    if name ∈ c.watched then c.accept path r
    else ({ c with watched := c.watched.insert name }.accept path r).accept path r

/-- A cache once a node has been deleted: a child is no longer watched, and forgotten. -/
def bereft (c : Cache) (path : String) : Cache :=
  match Path.childName? c.parent path with
  | none => c
  | some name => { c with watched := c.watched.erase name }.forget name

/-- A cache after a write to a store with these nodes. -/
def after (c : Cache) (nodes : ExtTreeMap String Record) : Write → Cache
  | .create path r => if path ∈ nodes then c else c.written path r
  | .set path r => c.written path r
  | .remove path => if path ∈ nodes then c.bereft path else c
  | .notify _ => c

section Equations

variable {c : Cache} {path name : String}

theorem written_of_none (h : Path.childName? c.parent path = none) (r : Record) :
    c.written path r = c := by
  rw [written, h]

theorem written_of_some (h : Path.childName? c.parent path = some name) (r : Record) :
    c.written path r = if name ∈ c.watched then c.accept path r
      else ({ c with watched := c.watched.insert name }.accept path r).accept path r := by
  rw [written, h]

theorem bereft_of_none (h : Path.childName? c.parent path = none) : c.bereft path = c := by
  rw [bereft, h]

theorem bereft_of_some (h : Path.childName? c.parent path = some name) :
    c.bereft path = { c with watched := c.watched.erase name }.forget name := by
  rw [bereft, h]

end Equations

theorem akin_written (c : Cache) (path : String) (r : Record) : c.Akin (c.written path r) := by
  rw [written]
  split
  · exact .refl c
  · split
    · exact akin_accept c path r
    · next name _ _ =>
      have hwatch := akin_watched c (c.watched.insert name)
      exact (hwatch.trans (akin_accept _ path r)).trans (akin_accept _ path r)

theorem akin_bereft (c : Cache) (path : String) : c.Akin (c.bereft path) := by
  rw [bereft]
  split
  · exact .refl c
  · next name _ => exact (akin_watched c (c.watched.erase name)).trans (akin_forget _ name)

/-- A write changes no more of a cache than what it holds and watches. -/
theorem akin_after (c : Cache) (nodes : ExtTreeMap String Record) (w : Write) :
    c.Akin (c.after nodes w) := by
  cases w with
  | create path r =>
    rw [after]
    split
    · exact .refl c
    · exact akin_written c path r
  | set path r => exact akin_written c path r
  | remove path =>
    rw [after]
    split
    · exact akin_bereft c path
    · exact .refl c
  | notify e => exact .refl c

/-! ## Listings that bring little that is new -/

variable {self : Watcher} {c : Cache} {l : Link}

/-- A listing of children that are all watched is nothing new. -/
theorem track_of_watched : ∀ {names : List String}, (∀ n ∈ names, n ∈ c.watched) →
    track self names c l = (c, l)
  | [], _ => rfl
  | name :: names, h => by
    obtain ⟨hname, hnames⟩ := List.forall_mem_cons.mp h
    rw [track, trackChild, if_pos hname]
    exact track_of_watched hnames

/-- A listing in which one child is new is the coming of that child, however often it is listed. -/
theorem track_of_new {name : String} : ∀ {names : List String} {c : Cache} {l : Link},
    name ∈ names → (∀ n ∈ names, n = name ∨ n ∈ c.watched) →
      track self names c l = trackChild self name c l
  | n :: names, c, l, hmem, h => by
    obtain ⟨hn, hnames⟩ := List.forall_mem_cons.mp h
    by_cases heq : n = name
    · subst heq
      refine track_of_watched fun m hm => mem_watched_trackChild.mpr ?_
      exact hnames m hm
    · have hin : n ∈ c.watched := hn.resolve_left heq
      have hskip : trackChild self n c l = (c, l) := if_pos hin
      rw [track, hskip]
      exact track_of_new ((List.mem_cons.mp hmem).resolve_left (Ne.symm heq)) hnames

/-- A child that is new and has a record is watched, and its record is taken in. -/
theorem trackChild_of_node {name : String} {r : Record} (hout : name ∉ c.watched)
    (hl : l.faults = []) (hnode : l.store.nodes[Path.child c.parent name]? = some r) :
    (trackChild self name c l).1
      = { c with watched := c.watched.insert name }.accept (Path.child c.parent name) r := by
  have hget : ((l.watchData (Path.child c.parent name) self).get (Path.child c.parent name)).1
      = .ok (some r) := by
    rw [Link.get_of_reads (by simp [Link.watchData, hl])]
    exact congrArg Except.ok hnode
  rw [trackChild, if_neg hout, load]
  split
  · next r' _ heq =>
    rw [heq] at hget
    cases hget
    rfl
  · next hno heq =>
    rw [heq] at hget
    exact absurd hget (hno r)

/-- A child that is new is registered for once, if it was not registered for already. -/
theorem registrations_trackChild_new {name : String} (hout : name ∉ c.watched)
    (hnone : l.store.registrations self (.data (Path.child c.parent name)) = 0) :
    (trackChild self name c l).2.store.registrations self (.data (Path.child c.parent name)) = 1 := by
  rw [trackChild, if_neg hout, load_store]
  refine (Watches.count_entries_add ..).trans ((if_pos rfl).trans ?_)
  exact congrArg (max 1) hnone

end Cache

/-! ## Rounds of telling -/

namespace Hub

variable {id : Nat} {c : Cache} {h : Hub}

/-- **Who is among the watchers once is told once**, with the link as the others have left it so
far. -/
theorem Unarmed.tellAll_once {e : Event} : ∀ {ws : List Watcher} {h : Hub}, h.Unarmed →
    h.caches[id]? = some c → ws.count (.cache id) = 1 →
      ∃ l, h.link.Beside (.cache id) l ∧
        (Hub.tellAll e ws h).1.caches[id]? = some (c.receive (.cache id) e l).1 ∧
        (c.receive (.cache id) e l).2.Beside (.cache id) (Hub.tellAll e ws h).1.link
  | [], _, _, _, hone => by cases hone
  | w :: ws, h, hu, hid, hone => by
    have hnone : (Hub.tell e w h).2 = none :=
      Option.eq_none_iff_forall_ne_some.mpr fun name hbreak => hu name (armed_of_tell hbreak)
    rw [tellAll_cons, if_pos hnone]
    by_cases hw : w = .cache id
    · subst hw
      have hout : Watcher.cache id ∉ ws := by
        rw [List.count_cons_self] at hone
        exact List.count_eq_zero.mp (Nat.succ.inj hone)
      have htold : Hub.tell e (.cache id) h =
          ({ h with link := (c.receive (.cache id) e h.link).2
                    caches := h.caches.insert id (c.receive (.cache id) e h.link).1 }, none) := by
        rw [Hub.tell, hid]
      obtain ⟨hc, hl⟩ := tellAll_of_not_mem e (Hub.tell e (.cache id) h).1 hout
      rw [htold] at hc hl ⊢
      exact ⟨h.link, .refl _ _, hc.trans ExtTreeMap.getElem?_insert_self, hl⟩
    · obtain ⟨hc, hl⟩ := tell_of_ne hw e h
      rw [List.count_cons_of_ne hw] at hone
      obtain ⟨l, hbeside, hcache, hafter⟩ :=
        Unarmed.tellAll_once (hu.of_kept (kept_tell e w h)) (hc.trans hid) hone
      exact ⟨l, hl.trans hbeside, hcache, hafter⟩

/-- Who is registered for the topic of an event once is told of it once. -/
theorem Unarmed.round_once (hu : h.Unarmed) (hid : h.caches[id]? = some c) {e : Event}
    (hone : h.store.registrations (.cache id) e.topic = 1) :
    ∃ l, h.link.Beside (.cache id) l ∧
      (Hub.tellAll e (h.store.watchersOf e) h).1.caches[id]? = some (c.receive (.cache id) e l).1 ∧
      (c.receive (.cache id) e l).2.Beside (.cache id)
        (Hub.tellAll e (h.store.watchersOf e) h).1.link :=
  hu.tellAll_once hid ((h.store.count_watchersOf e _).trans hone)

/-- Who is registered for none of the events' topics does nothing. -/
theorem Unarmed.deliver_unregistered : ∀ {es : List Event} {h : Hub}, h.Unarmed →
    (∀ e ∈ es, h.store.registrations (.cache id) e.topic = 0) →
      (Hub.deliver es h).1.caches[id]? = h.caches[id]?
  | [], _, _, _ => rfl
  | e :: es, h, hu, hes => by
    obtain ⟨he, hes⟩ := List.forall_mem_cons.mp hes
    have hout : Watcher.cache id ∉ h.store.watchersOf e := by
      rw [← List.count_eq_zero, h.store.count_watchersOf, he]
    obtain ⟨hc, hl⟩ := tellAll_of_not_mem e h hout
    rw [hu.deliver_cons, ← hc]
    refine Unarmed.deliver_unregistered (hu.of_kept (kept_tellAll e _ h)) fun e' he' => ?_
    rw [hl.registrations, hes e' he']

end Hub

/-! ## A cache that is ready -/

/-- What a cache is registered for: the children of its parent, and the record of each child that it
watches. -/
def Cache.Minds (c : Cache) : Topic → Prop
  | .children path => path = c.parent
  | .data path => ∃ name ∈ c.watched, path = Path.child c.parent name

/-- **The cache of this number is ready**, somewhere in a run without faults. -/
structure Ready (id : Nat) (c : Cache) (h : Hub) : Prop where
  run : ∃ log, Run .faultless log h
  found : h.caches[id]? = some c
  phase_eq : c.phase = .ready
  bare : Path.IsBare c.parent

namespace Ready

variable {id : Nat} {c : Cache} {h : Hub} {t : Topic} {path : String}

theorem unarmed (hr : Ready id c h) : h.Unarmed := by
  obtain ⟨log, hrun⟩ := hr.run
  exact hrun.unarmed

theorem faults_eq (hr : Ready id c h) : h.link.faults = [] := by
  obtain ⟨log, hrun⟩ := hr.run
  exact hrun.faults_eq_nil

theorem follows (hr : Ready id c h) :
    Follows id c.parent c.vault (· ∈ c.watched) (fun _ _ => True) c h.link := by
  obtain ⟨log, hrun⟩ := hr.run
  exact hrun.follows hr.found

/-- It watches all the children there are. -/
theorem mem_watched (hr : Ready id c h) {name : String} (hn : name ∈ h.store.children c.parent) :
    name ∈ c.watched := by
  obtain ⟨log, hrun⟩ := hr.run
  exact hrun.mem_watched hr.found hr.phase_eq hr.bare hn

/-- It is registered for nothing twice. -/
theorem single (hr : Ready id c h) : Single id c h.link := by
  obtain ⟨log, hrun⟩ := hr.run
  exact hrun.course.lasts (lasting_single _ id) c hr.found

theorem registrations_eq_one (hr : Ready id c h) (ht : c.Minds t) :
    h.store.registrations (.cache id) t = 1 := by
  cases t with
  | children path =>
    obtain rfl : path = c.parent := ht
    have hone := hr.single.children c.parent
    rw [if_pos rfl] at hone
    exact le_antisymm hone (List.count_pos_iff.mpr (hr.follows.attached (by simp [hr.phase_eq])))
  | data path =>
    obtain ⟨name, hn, rfl⟩ := ht
    exact le_antisymm (hr.single.data _) (List.count_pos_iff.mpr (hr.follows.registered name hn))

theorem registrations_eq_zero (hr : Ready id c h) (ht : ¬c.Minds t) :
    h.store.registrations (.cache id) t = 0 := by
  cases t with
  | children path =>
    have hzero := hr.single.children path
    exact Nat.le_zero.mp (hzero.trans_eq (if_neg ht))
  | data path => exact List.count_eq_zero.mpr fun hin => ht (hr.follows.home path hin)

/-- What happens to a path that is not a child's is none of its business. -/
theorem not_minds_of_siblings (hr : Ready id c h) (hpath : Path.childName? c.parent path = none)
    {s : Store} {e : Event} (he : e ∈ s.siblingEvent path) : ¬c.Minds e.topic := by
  obtain ⟨q, hq, rfl⟩ := Store.mem_siblingEvent.mp he
  rintro rfl
  have hsome := (Path.parent?_eq_some_iff hr.bare).mp hq
  rw [hpath] at hsome
  cases hsome

theorem not_minds_data (hr : Ready id c h) (hpath : Path.childName? c.parent path = none) :
    ¬c.Minds (.data path) := by
  rintro ⟨name, hn, rfl⟩
  have hsome : Path.childName? c.parent (Path.child c.parent name) = some name :=
    Path.childName?_eq_some_iff.mpr ⟨hr.follows.segment name hn, rfl⟩
  rw [hpath] at hsome
  cases hsome

/-! ## One write -/

/-- Of the children that there are once one has been written to, that one alone can be new. -/
theorem mem_watched_put (hr : Ready id c h) {name m : String} {r : Record}
    (hm : m ∈ (h.store.put (Path.child c.parent name) r).children c.parent) :
    m = name ∨ m ∈ c.watched := by
  obtain ⟨hseg, hin⟩ := Store.mem_children.mp hm
  simp only [Store.put, ExtTreeMap.mem_insert, Std.compare_eq_iff_eq] at hin
  refine hin.imp (fun heq => (Path.child_injective heq).symm) fun hin => ?_
  exact hr.mem_watched (Store.mem_children.mpr ⟨hseg, hin⟩)

/-- The children that there are once one is gone are others, and watched. -/
theorem mem_watched_delete (hr : Ready id c h) {name m : String}
    (hm : m ∈ (h.store.delete (Path.child c.parent name)).children c.parent) :
    m ∈ c.watched.erase name := by
  obtain ⟨hseg, hin⟩ := Store.mem_children.mp hm
  simp only [Store.delete, ExtTreeMap.mem_erase, ne_eq, Std.compare_eq_iff_eq] at hin
  rw [Std.ExtTreeSet.mem_erase, ne_eq, Std.compare_eq_iff_eq]
  exact ⟨fun heq => hin.1 (by rw [heq]), hr.mem_watched (Store.mem_children.mpr ⟨hseg, hin.2⟩)⟩

/-- **A child that is new is told of**, and the cache takes it up. -/
theorem heralded (hr : Ready id c h) {name : String} (hseg : Path.IsSegment name) (r : Record)
    (hnew : Path.child c.parent name ∉ h.store.nodes) {h₀ : Hub}
    (hh₀ : h₀ = { h with link.store := h.store.put (Path.child c.parent name) r }) :
    ∃ l, h₀.link.Beside (.cache id) l ∧
      (deliver (h.store.heralds (Path.child c.parent name) r) h₀).1.caches[id]?
        = some (Cache.trackChild (.cache id) name c l).1 ∧
      (Cache.trackChild (.cache id) name c l).2.Beside (.cache id)
        (deliver (h.store.heralds (Path.child c.parent name) r) h₀).1.link := by
  let names := (h.store.put (Path.child c.parent name) r).children c.parent
  have hheralds : h.store.heralds (Path.child c.parent name) r = [.children c.parent names] := by
    rw [Store.heralds, if_neg hnew, Store.siblingEvent_child hr.bare hseg]
  have hu₀ : h₀.Unarmed := by
    rw [hh₀]
    exact hr.unarmed
  have hid₀ : h₀.caches[id]? = some c := by
    rw [hh₀]
    exact hr.found
  have hone : h₀.store.registrations (.cache id) (.children c.parent) = 1 := by
    rw [hh₀]
    exact (h.store.registrations_withNodes ..).trans (hr.registrations_eq_one rfl)
  obtain ⟨l, hl, hcache, hl₁⟩ := hu₀.round_once hid₀ (e := .children c.parent names) hone
  -- of all that are listed this child alone can be new
  have htold : c.receive (.cache id) (.children c.parent names) l
      = Cache.trackChild (.cache id) name c l := by
    refine (if_pos rfl).trans (Cache.track_of_new ?_ fun n hn => hr.mem_watched_put hn)
    exact Store.mem_children.mpr ⟨hseg, by simp [Store.put]⟩
  rw [htold] at hcache hl₁
  rw [hheralds, hu₀.deliver_singleton]
  exact ⟨l, hl, hcache, hl₁⟩

/-- **What there is before a child's record is told of.**  If the child is new, the cache has been
told that it is there.  So it watches it and is registered for it once, and remains to take its
record in. -/
theorem coming (hr : Ready id c h) {name : String} (hseg : Path.IsSegment name) (r : Record)
    {h₀ : Hub} (hh₀ : h₀ = { h with link.store := h.store.put (Path.child c.parent name) r }) :
    ∃ c₁, (deliver (h.store.heralds (Path.child c.parent name) r) h₀).1.caches[id]? = some c₁ ∧
      name ∈ c₁.watched ∧
      (deliver (h.store.heralds (Path.child c.parent name) r) h₀).1.store.registrations (.cache id)
        (.data (Path.child c.parent name)) = 1 ∧
      c.written (Path.child c.parent name) r = c₁.accept (Path.child c.parent name) r := by
  have hpath : Path.childName? c.parent (Path.child c.parent name) = some name :=
    Path.childName?_eq_some_iff.mpr ⟨hseg, rfl⟩
  have hwritten := Cache.written_of_some hpath r
  have hregs : ∀ t, h₀.store.registrations (.cache id) t = h.store.registrations (.cache id) t := by
    rw [hh₀]
    exact h.store.registrations_withNodes _ _
  have hdata : name ∈ c.watched →
      h₀.store.registrations (.cache id) (.data (Path.child c.parent name)) = 1 :=
    fun hn => (hregs _).trans (hr.registrations_eq_one ⟨name, hn, rfl⟩)
  by_cases hin : Path.child c.parent name ∈ h.store.nodes
  · have hn : name ∈ c.watched := hr.mem_watched (Store.mem_children.mpr ⟨hseg, hin⟩)
    rw [Store.heralds, if_pos hin]
    refine ⟨c, ?_, hn, hdata hn, hwritten.trans (if_pos hn)⟩
    rw [hh₀]
    exact hr.found
  · obtain ⟨l, hl, hcache, hl₁⟩ := hr.heralded hseg r hin hh₀
    refine ⟨_, hcache, Cache.mem_watched_trackChild.mpr (.inl rfl), ?_, ?_⟩
    · rw [hl₁.registrations]
      by_cases hn : name ∈ c.watched
      · exact Cache.registrations_trackChild name c ((hl.registrations _).trans (hdata hn))
      · refine Cache.registrations_trackChild_new hn ((hl.registrations _).trans ?_)
        refine (hregs _).trans (hr.registrations_eq_zero ?_)
        rintro ⟨m, hm, heq⟩
        exact hn (Path.child_injective heq ▸ hm)
    · have hnode : l.store.nodes[Path.child c.parent name]? = some r := by
        rw [hl.nodes, hh₀]
        exact ExtTreeMap.getElem?_insert_self
      have hfaults : l.faults = [] := by
        rw [hh₀] at hl
        exact List.eq_nil_of_subset_nil (hr.faults_eq ▸ hl.faults)
      rw [hwritten]
      split
      · next hn => rw [Cache.trackChild, if_pos hn]
      · next hn => rw [Cache.trackChild_of_node hn hfaults hnode]

/-- **What the writing of a record makes of it.** -/
theorem put (hr : Ready id c h) (path : String) (r : Record) :
    (deliver (h.store.putEvents path r)
      { h with link.store := h.store.put path r }).1.caches[id]? = some (c.written path r) := by
  let h₀ : Hub := { h with link.store := h.store.put path r }
  have hu₀ : h₀.Unarmed := hr.unarmed
  change (deliver (h.store.putEvents path r) h₀).1.caches[id]? = _
  rw [Store.putEvents_eq]
  cases hpath : Path.childName? c.parent path with
  | none =>
    rw [Cache.written_of_none hpath]
    refine (hu₀.deliver_unregistered fun e he => ?_).trans hr.found
    refine (h.store.registrations_withNodes ..).trans (hr.registrations_eq_zero ?_)
    obtain he | he := List.mem_append.mp he
    · rw [Store.heralds] at he
      split at he
      · cases he
      · exact hr.not_minds_of_siblings hpath he
    · cases List.mem_singleton.mp he
      exact hr.not_minds_data hpath
  | some name =>
    obtain ⟨hseg, rfl⟩ := Path.childName?_eq_some_iff.mp hpath
    let heralds := h.store.heralds (Path.child c.parent name) r
    have hu₁ : (deliver heralds h₀).1.Unarmed := hu₀.of_kept (kept_deliver heralds h₀)
    obtain ⟨c₁, hid₁, hn, hone, hwritten⟩ := hr.coming hseg r rfl
    rw [hu₀.deliver_append, hu₁.deliver_singleton]
    obtain ⟨l, -, hcache, -⟩ := hu₁.round_once hid₁ hone (e := .changed _ r)
    rw [hcache, hwritten, Cache.receive, Path.lastSegment_child c.parent hseg, if_pos hn]

/-- **What a deletion makes of it.** -/
theorem delete (hr : Ready id c h) (hin : path ∈ h.store.nodes) :
    (deliver (h.store.deleteEvents path)
      { h with link.store := h.store.delete path }).1.caches[id]? = some (c.bereft path) := by
  let h₀ : Hub := { h with link.store := h.store.delete path }
  have hu₀ : h₀.Unarmed := hr.unarmed
  have hregs : ∀ t, h₀.store.registrations (.cache id) t = h.store.registrations (.cache id) t :=
    h.store.registrations_withNodes _ _
  change (deliver (h.store.deleteEvents path) h₀).1.caches[id]? = _
  cases hpath : Path.childName? c.parent path with
  | none =>
    rw [Cache.bereft_of_none hpath]
    refine (hu₀.deliver_unregistered fun e he => ?_).trans hr.found
    rw [hregs, hr.registrations_eq_zero]
    obtain rfl | he := List.mem_cons.mp he
    · exact hr.not_minds_data hpath
    · exact hr.not_minds_of_siblings hpath he
  | some name =>
    obtain ⟨hseg, rfl⟩ := Path.childName?_eq_some_iff.mp hpath
    have hn : name ∈ c.watched := hr.mem_watched (Store.mem_children.mpr ⟨hseg, hin⟩)
    let gone := Event.deleted (Path.child c.parent name)
    let remaining := (h.store.delete (Path.child c.parent name)).children c.parent
    let c₁ : Cache := { c with watched := c.watched.erase name }.forget name
    have hu₁ := hu₀.of_kept (kept_tellAll gone (h₀.store.watchersOf gone) h₀)
    -- first it is told that the child is gone
    obtain ⟨l, hl, hcache, hl₁⟩ := hu₀.round_once (e := gone) hr.found
      ((hregs _).trans (hr.registrations_eq_one ⟨name, hn, rfl⟩))
    have htold : (c.receive (.cache id) gone l).1 = c₁ := by
      rw [Cache.receive, Path.lastSegment_child c.parent hseg]
    have hakin : c.Akin c₁ := htold ▸ Cache.akin_receive _ _ c l
    have hone : (c.receive (.cache id) gone l).2.store.registrations (.cache id)
        (.children c.parent) = 1 := by
      refine Cache.registrations_receive ((hl.registrations _).trans ?_) (by simp)
      exact (hregs _).trans (hr.registrations_eq_one rfl)
    rw [htold] at hcache
    -- then of the siblings that remain, and it watches all of them
    obtain ⟨l', -, hcache', -⟩ := hu₁.round_once (e := .children c.parent remaining) hcache
      ((hl₁.registrations _).trans hone)
    rw [Store.deleteEvents, hu₀.deliver_cons, Store.siblingEvent_child hr.bare hseg,
      hu₁.deliver_singleton, hcache', Cache.bereft_of_some hpath, Cache.receive,
      if_pos hakin.parent_eq.symm, Cache.track_of_watched fun n hn => ?_]
    rw [Cache.forget_watched]
    exact hr.mem_watched_delete hn

/-- **What a write makes of a cache that is ready**, and ready it remains. -/
theorem submit (hr : Ready id c h) {w : Write} (hw : w.IsGenuine) :
    Ready id (c.after h.store.nodes w) (h.submit w).2 := by
  have hfound : (h.write w).2.caches[id]? = some (c.after h.store.nodes w) := by
    cases w with
    | create path r =>
      by_cases hin : path ∈ h.store.nodes
      · rw [write, Store.effect, Cache.after, if_pos hin, if_pos hin]
        exact hr.found
      · have heff : h.store.effect (.create path r)
            = .ok ⟨h.store.put path r, h.store.putEvents path r, true⟩ := by
          rw [Store.effect, Store.putEvents, if_neg hin, if_neg hin]
        rw [hr.unarmed.write_of_effect heff, Cache.after, if_neg hin]
        exact hr.put path r
    | set path r =>
      have heff : h.store.effect (.set path r)
          = .ok ⟨h.store.put path r, h.store.putEvents path r, true⟩ := rfl
      rw [hr.unarmed.write_of_effect heff]
      exact hr.put path r
    | remove path =>
      by_cases hin : path ∈ h.store.nodes
      · have heff : h.store.effect (.remove path)
            = .ok ⟨h.store.delete path, h.store.deleteEvents path, true⟩ := by
          rw [Store.effect, if_pos hin, Store.deleteEvents]
        rw [hr.unarmed.write_of_effect heff, Cache.after, if_pos hin]
        exact hr.delete hin
      · have heff : h.store.effect (.remove path) = .ok ⟨h.store, [], false⟩ := by
          rw [Store.effect, if_neg hin]
        rw [hr.unarmed.write_of_effect heff, Cache.after, if_neg hin]
        exact hr.found
    | notify e => exact hw.elim
  have hakin := c.akin_after h.store.nodes w
  obtain ⟨log, hrun⟩ := hr.run
  refine ⟨⟨_, hrun.act (a := .write w) hw⟩, ?_, hakin.phase_eq.trans hr.phase_eq,
    hakin.parent_eq ▸ hr.bare⟩
  rwa [submit_of_faultless hr.faults_eq]

/-- The nodes after a write are those that the store would have after it. -/
theorem nodes_submit (hr : Ready id c h) (w : Write) :
    (h.submit w).2.store.nodes = (h.store.after w).nodes := by
  rw [submit_of_faultless hr.faults_eq, nodes_write_after]

end Ready

end Gatekeeper
