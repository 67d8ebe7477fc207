import Gatekeeper.Proofs.Hub.Run
import Gatekeeper.Proofs.Store.Effect
import Gatekeeper.Proofs.Store.Path
import Mathlib.Data.List.Sort

/-!
# Proofs/Hub/Account — what there is to tell of deeds

A watcher may be registered for a `Topic`, the record of a node or its children.  What there is to
tell of deeds can be read off the deeds alone: to those who are registered for the record of a node
its writes and deletions (`Deed.dataEvent?`), and to those who are registered for its children the
children there are, each time one of them comes to be or goes (`Store.childEvents`).

The last that there is to tell is what there is: the record (`record_of_dataEvents`), or the children
(`children_of_childEvents`).  A write tells those who are registered for a topic what there is to
tell of it (`Topic.events_write`); for the children of a node that rests on its path being bare, since
the parent of a path is found otherwise than the children below it.
-/

namespace Gatekeeper

open Std (ExtTreeMap)

/-! ## Topics -/

/-- What a watcher may be registered for. -/
inductive Topic
  /-- The children of a node. -/
  | children (path : String)
  /-- The record of a node. -/
  | data (path : String)
  deriving DecidableEq

/-- What an event is about. -/
def Event.topic : Event → Topic
  | .children path _ => .children path
  | .changed path _ => .data path
  | .deleted path => .data path

/-! ## What there is to tell -/

/-- What there is to tell of a deed to those who are registered for the record of a node. -/
def Deed.dataEvent? (path : String) (d : Deed) : Option Event :=
  match d.write with
  | .create p r | .set p r => if p = path then some (.changed path r) else none
  | .remove p => if p = path then some (.deleted path) else none
  | .notify _ => none

/-- The record that an event leaves at its node. -/
def Event.record? : Event → Option Record
  | .changed _ r => some r
  | .children _ _ | .deleted _ => none

namespace Store

/-- Whether a write brings a child of the node about, or takes one away. -/
def turns (s : Store) (parent : String) (w : Write) : Bool :=
  w.path?.any fun path => (Path.childName? parent path).isSome
    && (decide (path ∈ s.nodes) != decide (path ∈ (s.after w).nodes))

/-- The store after deeds. -/
def replay (s : Store) (ds : List Deed) : Store := ds.foldl (fun s d => s.after d.write) s

/-- What there is to tell of deeds to those who are registered for the children of a node: for each
child that comes to be or goes, the children that there are then. -/
def childEvents (parent : String) : Store → List Deed → List Event
  | _, [] => []
  | s, d :: ds =>
    if s.turns parent d.write then
      .children parent ((s.after d.write).children parent) :: childEvents parent (s.after d.write) ds
    else childEvents parent (s.after d.write) ds

theorem replay_append (s : Store) (ds es : List Deed) :
    s.replay (ds ++ es) = (s.replay ds).replay es := List.foldl_append

theorem replay_nodes_congr : ∀ (ds : List Deed) {s t : Store}, s.nodes = t.nodes →
    (s.replay ds).nodes = (t.replay ds).nodes
  | [], _, _, h => h
  | d :: ds, _, _, h => replay_nodes_congr ds (after_nodes_congr h d.write)

theorem turns_congr {s t : Store} (h : s.nodes = t.nodes) (parent : String) (w : Write) :
    s.turns parent w = t.turns parent w := by
  rw [turns, turns, h, after_nodes_congr h]

theorem childEvents_congr (parent : String) : ∀ (ds : List Deed) {s t : Store},
    s.nodes = t.nodes → childEvents parent s ds = childEvents parent t ds
  | [], _, _, _ => rfl
  | d :: ds, s, t, h => by
    have hafter := after_nodes_congr h d.write
    rw [childEvents, childEvents, turns_congr h, childEvents_congr parent ds hafter,
      children_congr hafter]

theorem childEvents_append (parent : String) : ∀ (ds es : List Deed) (s : Store),
    childEvents parent s (ds ++ es) = childEvents parent s ds ++ childEvents parent (s.replay ds) es
  | [], _, _ => rfl
  | d :: ds, es, s => by
    rw [List.cons_append, childEvents, childEvents, childEvents_append parent ds es]
    split <;> rfl

end Store

/-- What there is to tell of deeds to those who are registered for a topic. -/
def Topic.events (s : Store) (ds : List Deed) : Topic → List Event
  | .children path => s.childEvents path ds
  | .data path => ds.filterMap (·.dataEvent? path)

/-- A topic whose path is bare, if it is about children. -/
def Topic.Bare : Topic → Prop
  | .children path => Path.IsBare path
  | .data _ => True

namespace Topic

theorem events_nil (t : Topic) (s : Store) : t.events s [] = [] := by
  cases t <;> rfl

theorem events_append (t : Topic) (s : Store) (ds es : List Deed) :
    t.events s (ds ++ es) = t.events s ds ++ t.events (s.replay ds) es := by
  cases t with
  | children path => exact Store.childEvents_append path ds es s
  | data path => exact List.filterMap_append

theorem events_congr (t : Topic) {s s' : Store} (h : s.nodes = s'.nodes) (ds : List Deed) :
    t.events s ds = t.events s' ds := by
  cases t with
  | children path => exact Store.childEvents_congr path ds h
  | data path => rfl

end Topic

/-! ## The last that is told is what there is -/

/-- A chronicle is not about writes to other nodes. -/
theorem Deed.note_of_ne {path : String} {d : Deed} (h : d.write.path? ≠ some path)
    (rs : List (Record × ExtTreeMap Nat Cache)) : d.note path rs = rs := by
  obtain ⟨w, caches⟩ := d
  cases w with
  | create p r | set p r | remove p => exact if_neg fun hp => h (congrArg some hp)
  | notify e => rfl

/-- Of a write to another node there is nothing to tell of the record. -/
theorem Deed.dataEvent?_eq_none_iff {path : String} {d : Deed} :
    d.dataEvent? path = none ↔ d.write.path? ≠ some path := by
  obtain ⟨w, caches⟩ := d
  cases w <;> simp [dataEvent?, Write.path?]

/-- A deed tells of the record that the node's chronicle begins with after it. -/
theorem Deed.note_of_some {path : String} {d : Deed} {e : Event} (h : d.dataEvent? path = some e)
    (rs : List (Record × ExtTreeMap Nat Cache)) :
    (d.note path rs).head?.map Prod.fst = e.record? := by
  obtain ⟨w, caches⟩ := d
  cases w with
  | create p r | set p r | remove p =>
    simp only [dataEvent?, Option.ite_none_right_eq_some, Option.some.injEq] at h
    obtain ⟨rfl, rfl⟩ := h
    simp [note, Event.record?]
  | notify e => cases h

/-- **The last that is told of a record is the record there is.** -/
theorem record_of_dataEvents {path : String} {e : Event} {ds : List Deed}
    (h : (ds.filterMap (·.dataEvent? path)).getLast? = some e)
    (rs : List (Record × ExtTreeMap Nat Cache)) :
    (ds.foldl (Deed.note path) rs).head?.map Prod.fst = e.record? := by
  induction ds using List.reverseRecOn with
  | nil => cases h
  | append_singleton ds d ih =>
    rw [List.foldl_concat]
    rw [List.filterMap_append] at h
    cases hd : d.dataEvent? path with
    | none =>
      rw [Deed.note_of_ne (Deed.dataEvent?_eq_none_iff.mp hd)]
      exact ih (by simpa [hd] using h)
    | some e' =>
      obtain rfl : e' = e := by simpa [hd] using h
      exact Deed.note_of_some hd _

/-- A write that neither brings a child about nor takes one away leaves the listing as it is. -/
theorem Store.children_after {s : Store} {parent : String} {w : Write}
    (h : s.turns parent w = false) : (s.after w).children parent = s.children parent := by
  refine (children_ascending _ parent).eq_of_mem_iff (children_ascending _ parent) fun name => ?_
  rw [mem_children, mem_children]
  refine and_congr_right fun hseg => ?_
  by_cases hpath : w.path? = some (Path.child parent name)
  · have hname : Path.childName? parent (Path.child parent name) = some name :=
      Path.childName?_eq_some_iff.mpr ⟨hseg, rfl⟩
    simp only [turns, hpath, Option.any_some, hname, Option.isSome_some, Bool.true_and,
      bne_eq_false_iff_eq, decide_eq_decide] at h
    exact h.symm
  · exact mem_after_iff hpath

/-- **The last that is told of children is the children there are.** -/
theorem children_of_childEvents {s : Store} {parent : String} {e : Event} {ds : List Deed}
    (h : (s.childEvents parent ds).getLast? = some e) :
    e = .children parent ((s.replay ds).children parent) := by
  induction ds using List.reverseRecOn with
  | nil => cases h
  | append_singleton ds d ih =>
    rw [Store.childEvents_append] at h
    rw [Store.replay_append]
    have hreplay : (s.replay ds).replay [d] = (s.replay ds).after d.write := rfl
    cases hturns : (s.replay ds).turns parent d.write with
    | true =>
      simp only [Store.childEvents, hturns, if_true, List.getLast?_concat, Option.some.injEq] at h
      exact h.symm
    | false =>
      simp only [Store.childEvents, hturns, Bool.false_eq_true, if_false, List.append_nil] at h
      rw [hreplay, Store.children_after hturns]
      exact ih h

/-! ## What a write tells is what there is to tell of it -/

namespace Store

/-- The event that tells of a child's siblings, below a parent whose path is bare. -/
theorem siblingEvent_child {parent name : String} (hbare : Path.IsBare parent)
    (hseg : Path.IsSegment name) (s : Store) :
    s.siblingEvent (Path.child parent name) = [.children parent (s.children parent)] := by
  rw [siblingEvent, Path.parent?_child hseg hbare]

theorem filter_siblingEvent_data (s : Store) (path q : String) :
    (s.siblingEvent path).filter (·.topic = .data q) = [] := by
  rw [siblingEvent]
  split
  · exact List.filter_eq_nil_iff.mpr fun e he => by simp [List.mem_singleton.mp he, Event.topic]
  · rfl

/-- Those who are registered for the children of a node are told of its own children alone. -/
theorem filter_siblingEvent_children {parent : String} (hbare : Path.IsBare parent) (s : Store)
    (path : String) :
    (s.siblingEvent path).filter (·.topic = .children parent) =
      if (Path.childName? parent path).isSome then [.children parent (s.children parent)] else [] := by
  have hiff : Path.parent? path = some parent ↔ (Path.childName? parent path).isSome = true :=
    Path.parent?_eq_some_iff hbare
  rw [siblingEvent]
  cases hp : Path.parent? path with
  | none =>
    rw [if_neg fun hsome => by simp [hiff.mpr hsome] at hp]
    rfl
  | some q =>
    by_cases hq : q = parent
    · subst hq
      rw [if_pos (hiff.mp hp)]
      simp [Event.topic]
    · rw [if_neg fun hsome => hq (Option.some.inj (hp.symm.trans (hiff.mpr hsome)))]
      simp [Event.topic, hq]

end Store

/-- Nothing that a write tells of a record comes after its deletion. -/
theorem Store.effect_events {s : Store} {w : Write} {effect : Effect}
    (heff : s.effect w = .ok effect) (t : Topic) : effect.events.Pairwise fun e e' =>
      ∀ path, e = .deleted path → t = .data path → e'.topic ≠ t := by
  have hsiblings : ∀ (u : Store) path, ∀ e ∈ u.siblingEvent path, ∃ q ns, e = .children q ns := by
    intro u path e he
    obtain ⟨q, -, rfl⟩ := mem_siblingEvent.mp he
    exact ⟨q, _, rfl⟩
  obtain ⟨path, r, -, rfl⟩ | ⟨path, -, rfl⟩ | ⟨path, -, -, rfl⟩ | ⟨e, -, rfl⟩ :=
    effect_cases heff
  · refine List.pairwise_of_forall_mem_list fun e he _ _ q hq _ => ?_
    subst hq
    obtain he | he := List.mem_append.mp he
    · split at he
      · cases he
      · obtain ⟨_, _, heq⟩ := hsiblings _ path _ he
        cases heq
    · cases List.mem_singleton.mp he
  · refine List.pairwise_cons.mpr ⟨fun e he q _ ht => ?_, ?_⟩
    · obtain ⟨_, _, rfl⟩ := hsiblings _ path e he
      rw [ht]
      nofun
    · refine List.pairwise_of_forall_mem_list fun e he _ _ q hq _ => ?_
      obtain ⟨_, _, rfl⟩ := hsiblings _ path e he
      cases hq
  · exact .nil
  · exact List.pairwise_singleton _ _

/-- What there is to tell of a write to those who are registered for children. -/
theorem Store.childEvents_write {s : Store} {w : Write} {effect : Effect}
    (heff : s.effect w = .ok effect) {path : String} (hpath : w.path? = some path)
    (parent : String) (caches : ExtTreeMap Nat Cache) :
    s.childEvents parent [⟨w, caches⟩] =
      if (Path.childName? parent path).isSome = true
          ∧ ¬(path ∈ s.nodes ↔ path ∈ effect.store.nodes)
      then [.children parent (effect.store.children parent)] else [] := by
  simp only [childEvents, turns, hpath, Option.any_some, after_of_effect heff, Bool.and_eq_true,
    bne_iff_ne, ne_eq, decide_eq_decide]

/-- **What a write tells those who are registered for a topic is what there is to tell of it.** -/
theorem Topic.events_write {t : Topic} (ht : t.Bare) {s : Store} {w : Write} (hw : w.IsGenuine)
    {effect : Effect} (heff : s.effect w = .ok effect) (caches : ExtTreeMap Nat Cache) :
    effect.events.filter (·.topic = t) = t.events s (Deed.of w (.ok effect.done) caches) := by
  obtain ⟨path, r, hput, rfl⟩ | ⟨path, rfl, rfl⟩ | ⟨path, rfl, -, rfl⟩ | ⟨e, rfl, rfl⟩ :=
    Store.effect_cases heff
  · have hdeed : Deed.of w (.ok true) caches = [⟨w, caches⟩] := rfl
    rw [Store.putEvents, List.filter_append, apply_ite (List.filter _), hdeed]
    cases t with
    | data q =>
      rw [Store.filter_siblingEvent_data]
      obtain rfl | rfl := hput <;> by_cases hp : path = q <;>
        simp [events, Deed.dataEvent?, Event.topic, hp]
    | children q =>
      have hpath : w.path? = some path := by obtain rfl | rfl := hput <;> rfl
      rw [Store.filter_siblingEvent_children ht, events, Store.childEvents_write heff hpath]
      by_cases hin : path ∈ s.nodes <;> simp [Store.put, Event.topic, hin]
  · have hdeed : Deed.of (.remove path) (.ok true) caches = [⟨.remove path, caches⟩] := rfl
    have hin : path ∈ s.nodes := by
      refine Classical.byContradiction fun hout => ?_
      rw [Store.effect, if_neg hout] at heff
      exact absurd (congrArg Effect.done (Except.ok.inj heff)) Bool.false_ne_true
    rw [Store.deleteEvents, List.filter_cons, hdeed]
    cases t with
    | data q =>
      rw [Store.filter_siblingEvent_data]
      by_cases hp : path = q <;> simp [events, Deed.dataEvent?, Event.topic, hp]
    | children q =>
      rw [Store.filter_siblingEvent_children ht, events, Store.childEvents_write heff rfl]
      simp [Store.delete, Event.topic, hin]
  · exact (events_nil t s).symm
  · exact hw.elim

end Gatekeeper
