import Gatekeeper.Proofs.Cache.Phases
import Gatekeeper.Proofs.Hub.Within

/-!
# Proofs/Hub/Bystanders — those who listen do not get in each other's way

Take a run in which nothing fails, nobody breaks off and no race waits, and put acts of others in
between at will: recorders that register and take their registrations back, caches that are started
or dropped, anyone who reads (`Interleaved`).  `Hub.unnoticed`: at corresponding points the stored
records are the same, each cache of the first run is as it was there, with its entries, the names
that it watches and its phase, and each recorder of the first run has heard the same, in the same
order.

There are two halves to it.  An act of others changes nothing of what some watchers have of the hub
(`Act.OfOthers.within_perform`), and any other act does to that the same as to the hub as a whole
(`Calm.perform_congr`).  The induction is on the interleaving.
-/

namespace Gatekeeper

open Std (ExtTreeMap)

variable {own : Watcher → Bool}

/-! ## Acts on a calm hub -/

namespace Hub

variable {h : Hub}

/-- A moment that nothing waits for passes. -/
theorem Calm.reach (hc : h.Calm) (point : RacePoint) : h.reach point = h := by
  have hraces : (fun p => if p = point then [] else h.races p) = h.races := by
    funext p
    rw [hc.races p, ite_self]
  rw [Hub.reach, hraces, hc.races, List.foldl_nil]

theorem Calm.submit (hc : h.Calm) (w : Write) : h.submit w = h.write w :=
  submit_of_faultless hc.faults w

theorem Calm.get (hc : h.Calm) (path : String) :
    h.get path = (.ok h.store.nodes[path]?, h) := by
  obtain ⟨⟨store, faults⟩, caches, armed, heard, races, raced⟩ := h
  obtain rfl := hc.faults
  rfl

theorem Calm.exists? (hc : h.Calm) (path : String) :
    h.exists? path = (.ok h.store.nodes[path]?.isSome, h) := by
  rw [Hub.exists?, hc.get]
  rfl

theorem Calm.list (hc : h.Calm) (path : String) :
    h.list path = (.ok (h.store.children path), h) := by
  rw [Hub.list, hc.reach, Link.failure?_of_faultless hc.faults]
  dsimp only
  rw [hc.reach]

theorem Calm.of_link (hc : h.Calm) {l : Link} (hl : l.faults = []) : Calm { h with link := l } :=
  ⟨hl, hc.unarmed, hc.races⟩

theorem Calm.watchChildren (hc : h.Calm) (path : String) (w : Watcher) :
    h.watchChildren path w = { h with link := h.link.watchChildren path w } :=
  (hc.of_link (l := h.link.watchChildren path w) hc.faults).reach .afterSubscribe

theorem Calm.changeCache (hc : h.Calm) (id : Nat) {f : Cache → Link → Cache × Link}
    (hf : ∀ c l, (f c l).2.faults ⊆ l.faults) : (h.changeCache id f).Calm := by
  rw [Hub.changeCache]
  split
  · exact hc
  · next c _ =>
    exact ⟨List.eq_nil_of_subset_nil (hc.faults ▸ hf c h.link), hc.unarmed, hc.races⟩

theorem Calm.register (hc : h.Calm) (id : Nat) : (h.register id).Calm :=
  hc.changeCache id fun _ _ => List.Subset.refl _

theorem Calm.settle (hc : h.Calm) (id : Nat) (names : List String) : (h.settle id names).Calm :=
  hc.changeCache id fun c l =>
    (Cache.beside_track (v := .cache id) (w := .recorder "") (by simp) names c l).faults

/-- A start of a calm hub's cache, as far as its registration. -/
theorem Calm.begin_eq (hc : h.Calm) {id : Nat} {c : Cache} (hid : h.caches[id]? = some c) :
    (h.enter id .syncing).watchChildren c.parent (.cache id) = h.register id := by
  have hcalm : (h.enter id .syncing).Calm := hc.changeCache id fun _ _ => List.Subset.refl _
  rw [hcalm.watchChildren, enter, Hub.register, Hub.changeCache, Hub.changeCache, hid]

theorem Calm.begin (hc : h.Calm) (id : Nat) :
    h.begin id = if (h.caches[id]?.any fun c => c.phase = .uninitialized) then h.register id
      else h := by
  rw [Hub.begin]
  cases hid : h.caches[id]? with
  | none => rfl
  | some c => simp [hc.begin_eq hid]

/-- A start of a calm hub's cache takes the children in. -/
theorem Calm.start (hc : h.Calm) (id : Nat) :
    (h.start id).2 = match h.caches[id]? with
      | none => h
      | some c =>
        if c.phase = .uninitialized then
          (h.register id).settle id ((h.register id).store.children c.parent)
        else h := by
  rw [Hub.start]
  cases hid : h.caches[id]? with
  | none => rfl
  | some c =>
    dsimp only
    split
    · rw [hc.begin_eq hid, (hc.register id).list]
      rfl
    · rfl

/-! ## Tasks of an administrator -/

/-- The hub once a write is done, if there is one. -/
def perhaps (h : Hub) : Option Write → Hub
  | none => h
  | some w => (h.write w).2

end Hub

/-- The write that a task of an administrator has to do, given the records: it replaces nothing that
is not there. -/
def Admin.Task.due (a : Admin) (t : Task) (nodes : ExtTreeMap String Record) : Option Write :=
  match t with
  | .update username component _ =>
    if (nodes[a.path (addressed username component)]?).isSome then t.write? a else none
  | _ => t.write? a

namespace Hub

variable {h : Hub}

theorem Calm.add (hc : h.Calm) (a : Admin) (c : Credential) :
    (a.add c h).2 = h.perhaps (a.creation? c) := by
  rw [Admin.add, Admin.creation?]
  split
  · cases a.vault.encode c with
    | error e => rfl
    | ok r =>
      dsimp only
      rw [hc.submit]
      split <;> next hwrite => exact (congrArg Prod.snd hwrite).symm
  · rfl

theorem Calm.update (hc : h.Calm) (a : Admin) (username : String) (component : Component)
    (c : Credential) : (a.update username component c h).2
      = h.perhaps ((Admin.Task.update username component c).due a h.store.nodes) := by
  rw [Admin.update, Admin.Task.due, Admin.Task.write?, hc.exists?]
  split
  · cases (h.store.nodes[a.path (Admin.addressed username component)]?).isSome with
    | false => rfl
    | true =>
      cases a.vault.encode c with
      | error e => rfl
      | ok r =>
        dsimp only
        rw [hc.submit]
        split <;> next hwrite => exact (congrArg Prod.snd hwrite).symm
  · rw [ite_self]
    rfl

theorem Calm.delete (hc : h.Calm) (a : Admin) (username : String) (component : Component) :
    (a.delete username component h).2
      = (h.write (.remove (a.path (Admin.addressed username component)))).2 := by
  rw [Admin.delete, hc.submit]
  split <;> next hwrite => exact (congrArg Prod.snd hwrite).symm

/-- **A task of an administrator does the write that it has to do.** -/
theorem Calm.run (hc : h.Calm) (a : Admin) (t : Admin.Task) :
    (t.run a h).2 = h.perhaps (t.due a h.store.nodes) := by
  cases t with
  | add c => exact hc.add a c
  | addForm f =>
    have hdue : (Admin.Task.addForm f).due a h.store.nodes = (Admin.Task.addForm f).write? a := rfl
    rw [Admin.Task.run, Admin.outcome, Admin.addForm, hdue, Admin.Task.write?]
    cases f.credential with
    | error e => rfl
    | ok c => exact hc.add a c
  | update username component c => exact hc.update a username component c
  | delete username component => exact hc.delete a username component
  | seek username component =>
    rw [Admin.Task.run, Admin.outcome, Admin.exists?, hc.exists?]
    rfl
  | list =>
    rw [Admin.Task.run, Admin.outcome, Admin.list, hc.list]
    rfl
  | get username component =>
    rw [Admin.Task.run, Admin.outcome, Admin.get, hc.get]
    dsimp only
    cases h.store.nodes[a.path (Admin.addressed username component)]? <;> rfl

theorem Calm.perhaps_within (hc : h.Calm) (w? : Option Write) :
    (h.perhaps w?).within own = (h.within own).perhaps w? := by
  cases w? with
  | none => rfl
  | some w => exact (congrArg Prod.snd (hc.write_within w)).symm

theorem Calm.perhaps (hc : h.Calm) (w? : Option Write) : (h.perhaps w?).Calm := by
  cases w? with
  | none => exact hc
  | some w => exact hc.write w

/-! ## Starts, as some watchers have them -/

section Start

variable {id : Nat}

theorem within_register (hid : own (.cache id) = true) (h : Hub) :
    (h.register id).within own = (h.within own).register id :=
  within_changeCache hid (fun c l => by rw [Link.within_watchChildren hid]) h

theorem within_settle (hid : own (.cache id) = true) (names : List String) (h : Hub) :
    (h.settle id names).within own = (h.within own).settle id names :=
  within_changeCache hid (fun c l => by rw [Cache.track_within hid]) h

theorem within_register_of_not (hid : own (.cache id) = false) (h : Hub) :
    (h.register id).within own = h.within own :=
  within_changeCache_of_not hid fun c => Link.unseen_watchChildren hid h.link c.parent

theorem Calm.within_settle_of_not (hid : own (.cache id) = false) (hc : h.Calm)
    (names : List String) : (h.settle id names).within own = h.within own :=
  within_changeCache_of_not hid fun c => Cache.unseen_track hid names c hc.faults

theorem Calm.within_begin (hid : own (.cache id) = true) (hc : h.Calm) :
    (h.begin id).within own = (h.within own).begin id := by
  rw [hc.begin, (hc.within own).begin, getElem?_within hid]
  split
  · exact within_register hid h
  · rfl

theorem Calm.within_begin_of_not (hid : own (.cache id) = false) (hc : h.Calm) :
    (h.begin id).within own = h.within own := by
  rw [hc.begin]
  split
  · exact within_register_of_not hid h
  · rfl

theorem Calm.within_start (hid : own (.cache id) = true) (hc : h.Calm) :
    (h.start id).2.within own = ((h.within own).start id).2 := by
  rw [hc.start, (hc.within own).start, getElem?_within hid, ← within_register hid]
  cases h.caches[id]? with
  | none => rfl
  | some c =>
    dsimp only
    split
    · exact within_settle hid _ (h.register id)
    · rfl

theorem Calm.within_start_of_not (hid : own (.cache id) = false) (hc : h.Calm) :
    (h.start id).2.within own = h.within own := by
  rw [hc.start]
  cases h.caches[id]? with
  | none => rfl
  | some c =>
    dsimp only
    split
    · rw [(hc.register id).within_settle_of_not hid, within_register_of_not hid]
    · rfl

end Start

end Hub

open Hub

/-! ## Acts of others -/

/-- Whether an act leaves a calm hub calm: it arms nobody, and announces neither faults nor races. -/
def Act.IsCalm : Act → Prop
  | arm _ | fault _ _ | await _ _ => False
  | _ => True

/-- **An act that none of the watchers has a part in**: somebody reads, somebody else registers or
takes a registration back, or other caches are started or dropped. -/
inductive Act.OfOthers (own : Watcher → Bool) : Act → Prop
  | read (path : String) : OfOthers own (.read path)
  | list (path : String) : OfOthers own (.list path)
  | watchChildren (path : String) {name : String} (hname : own (.recorder name) = false) :
      OfOthers own (.watchChildren path name)
  | watchData (path : String) {name : String} (hname : own (.recorder name) = false) :
      OfOthers own (.watchData path name)
  | unwatchData (path : String) {name : String} (hname : own (.recorder name) = false) :
      OfOthers own (.unwatchData path name)
  | begin {id : Nat} (hid : own (.cache id) = false) : OfOthers own (.begin id)
  | start {id : Nat} (hid : own (.cache id) = false) : OfOthers own (.start id)
  | keep {kept : Nat → Bool} (hkept : ∀ id, own (.cache id) = true → kept id = true) :
      OfOthers own (.keep kept)

section Acts

variable {a : Act} {h h₁ h₂ : Hub}

theorem Act.OfOthers.isCalm (ha : a.OfOthers own) : a.IsCalm := by
  cases ha <;> trivial

/-- **A calm act leaves a calm hub calm.** -/
theorem Hub.Calm.perform (hc : h.Calm) (ha : a.IsCalm) : (a.perform h).Calm := by
  cases a with
  | write w =>
    rw [Act.perform, hc.submit]
    exact hc.write w
  | administer a t =>
    rw [Act.perform, hc.run]
    exact hc.perhaps _
  | read path =>
    rw [Act.perform, hc.get]
    exact hc
  | list path =>
    rw [Act.perform, hc.list]
    exact hc
  | watchChildren path name =>
    rw [Act.perform, hc.watchChildren]
    exact hc.of_link hc.faults
  | watchData path name => exact hc.of_link hc.faults
  | unwatchData path name => exact hc.of_link hc.faults
  | begin id =>
    rw [Act.perform, hc.begin]
    split
    · exact hc.register id
    · exact hc
  | start id =>
    rw [Act.perform, hc.start]
    split
    · exact hc
    · split
      · exact (hc.register id).settle id _
      · exact hc
  | keep kept => exact ⟨hc.faults, hc.unarmed, hc.races⟩
  | arm _ | fault _ _ | await _ _ => exact ha.elim

/-- **Acts of others are not seen.** -/
theorem Act.OfOthers.within_perform (ha : a.OfOthers own) (hc : h.Calm) :
    (a.perform h).within own = h.within own := by
  cases ha with
  | read path => rw [Act.perform, hc.get]
  | list path => rw [Act.perform, hc.list]
  | watchChildren path hname =>
    rw [Act.perform, hc.watchChildren]
    simp only [Hub.within, (Link.unseen_watchChildren hname h.link path).within]
  | watchData path hname =>
    simp only [Act.perform, Hub.watchData, Hub.within,
      (Link.unseen_watchData hname h.link path).within]
  | unwatchData path hname =>
    simp only [Act.perform, Hub.unwatchData, Hub.within,
      (Link.unseen_unwatchData hname h.link path).within]
  | begin hid => exact hc.within_begin_of_not hid
  | start hid => exact hc.within_start_of_not hid
  | @keep kept hkept =>
    simp only [Act.perform, keepCaches, Hub.within, Hub.mk.injEq, and_true, true_and]
    refine ExtTreeMap.ext_getElem? fun id => ?_
    simp only [ExtTreeMap.getElem?_filter']
    cases h.caches[id]? with
    | none => rfl
    | some c =>
      cases hown : own (.cache id) with
      | false => cases kept id <;> simp
      | true => simp [hkept id hown]

/-- **An act that is not one of others** comes to the same for some watchers with everyone else there
as with nobody. -/
theorem Hub.Calm.within_perform (hc : h.Calm) (ha : a.IsCalm) (hown : ¬a.OfOthers own) :
    (a.perform h).within own = a.perform (h.within own) := by
  have hc' := hc.within own
  cases a with
  | write w =>
    rw [Act.perform, Act.perform, hc.submit, hc'.submit, hc.write_within]
  | administer a t =>
    rw [Act.perform, Act.perform, hc.run, hc'.run, hc.perhaps_within]
    rfl
  | read path => exact absurd (.read path) hown
  | list path => exact absurd (.list path) hown
  | watchChildren path name =>
    have hname : own (.recorder name) = true :=
      Bool.of_not_eq_false fun hno => hown (.watchChildren path hno)
    rw [Act.perform, Act.perform, hc.watchChildren, hc'.watchChildren]
    simp only [Hub.within, Link.within_watchChildren hname]
  | watchData path name =>
    have hname : own (.recorder name) = true :=
      Bool.of_not_eq_false fun hno => hown (.watchData path hno)
    simp only [Act.perform, Hub.watchData, Hub.within, Link.within_watchData hname]
  | unwatchData path name =>
    simp only [Act.perform, Hub.unwatchData, Hub.within, Link.within_unwatchData]
  | begin id =>
    exact hc.within_begin (Bool.of_not_eq_false fun hno => hown (.begin hno))
  | start id =>
    exact hc.within_start (Bool.of_not_eq_false fun hno => hown (.start hno))
  | keep kept =>
    simp only [Act.perform, keepCaches, Hub.within, Hub.mk.injEq, and_true, true_and]
    refine ExtTreeMap.ext_getElem? fun id => ?_
    simp only [ExtTreeMap.getElem?_filter']
    generalize own (.cache id) = b
    cases h.caches[id]? <;> cases b <;> cases kept id <;> rfl
  | arm _ | fault _ _ | await _ _ => exact ha.elim

/-- Hubs that some watchers cannot tell apart are taken by a calm act to such hubs. -/
theorem Hub.Calm.perform_congr (hc₁ : h₁.Calm) (hc₂ : h₂.Calm) (ha : a.IsCalm)
    (hsame : h₁.within own = h₂.within own) :
    (a.perform h₁).within own = (a.perform h₂).within own := by
  by_cases hown : a.OfOthers own
  · rw [hown.within_perform hc₁, hown.within_perform hc₂, hsame]
  · rw [hc₁.within_perform ha hown, hc₂.within_perform ha hown, hsame]

end Acts

/-! ## Interleavings -/

/-- **The second list is the first with acts of others in between.** -/
inductive Interleaved (own : Watcher → Bool) : List Act → List Act → Prop
  | nil : Interleaved own [] []
  | common {a : Act} {as bs : List Act} (ha : a.IsCalm) (hi : Interleaved own as bs) :
      Interleaved own (a :: as) (a :: bs)
  | other {b : Act} {as bs : List Act} (hb : b.OfOthers own) (hi : Interleaved own as bs) :
      Interleaved own as (b :: bs)

/-- **The induction on an interleaving**: what some watchers have of the hub stays the same on both
sides. -/
theorem Interleaved.within_performAll {as bs : List Act} (hi : Interleaved own as bs)
    {log₁ log₂ : List Deed} {h₁ h₂ : Hub} (hc₁ : h₁.Calm) (hc₂ : h₂.Calm)
    (hsame : h₁.within own = h₂.within own) :
    (Act.performAll as log₁ h₁).2.within own = (Act.performAll bs log₂ h₂).2.within own := by
  induction hi generalizing log₁ log₂ h₁ h₂ with
  | nil => exact hsame
  | common ha _ ih => exact ih (hc₁.perform ha) (hc₂.perform ha) (hc₁.perform_congr hc₂ ha hsame)
  | other hb _ ih =>
    exact ih hc₁ (hc₂.perform hb.isCalm) (hsame.trans (hb.within_perform hc₂).symm)

/-- To each beginning of the first list belongs one of the second. -/
theorem Interleaved.exists_prefix {as bs : List Act} (hi : Interleaved own as bs) :
    ∀ as₁, as₁ <+: as → ∃ bs₁, bs₁ <+: bs ∧ Interleaved own as₁ bs₁ := by
  induction hi with
  | nil =>
    intro as₁ hpre
    obtain rfl := List.prefix_nil.mp hpre
    exact ⟨[], List.nil_prefix, .nil⟩
  | common ha _ ih =>
    intro as₁ hpre
    obtain rfl | ⟨as₂, rfl, hpre₂⟩ := List.prefix_cons_iff.mp hpre
    · exact ⟨[], List.nil_prefix, .nil⟩
    · obtain ⟨bs₂, hbs₂, hi₂⟩ := ih as₂ hpre₂
      exact ⟨_ :: bs₂, List.prefix_cons_inj _ |>.mpr hbs₂, .common ha hi₂⟩
  | other hb _ ih =>
    intro as₁ hpre
    obtain ⟨bs₁, hbs₁, hi₁⟩ := ih as₁ hpre
    exact ⟨_ :: bs₁, List.prefix_cons_inj _ |>.mpr hbs₁, .other hb hi₁⟩

namespace Hub

/-- What a recorder has heard so far. -/
def heardBy (name : String) (h : Hub) : List Event :=
  (h.heard.filter fun x => x.1 = name).map Prod.snd

/-- **The two hubs are the same to some watchers**: the records are the same, each of their caches is
as it is, and each of their recorders has heard the same. -/
structure SameFor (own : Watcher → Bool) (h h' : Hub) : Prop where
  /-- The caches are the same, with what they hold, what they watch, and how far they have come. -/
  caches : ∀ id, own (.cache id) = true → h'.caches[id]? = h.caches[id]?
  /-- The recorders have heard the same, in the same order. -/
  heard : ∀ name, own (.recorder name) = true → h'.heardBy name = h.heardBy name
  /-- The records are the same. -/
  nodes : h'.store.nodes = h.store.nodes

theorem heardBy_within {name : String} (hname : own (.recorder name) = true) (h : Hub) :
    (h.within own).heardBy name = h.heardBy name := by
  rw [heardBy, heardBy, within, List.filter_filter]
  refine congrArg (List.map Prod.snd) (List.filter_congr fun x _ => ?_)
  by_cases hx : x.1 = name
  · simp [hx, hname]
  · simp [hx]

theorem SameFor.of_within {h h' : Hub} (hsame : h.within own = h'.within own) :
    SameFor own h h' where
  caches id hid := by rw [← getElem?_within hid h', ← hsame, getElem?_within hid]
  heard name hname := by rw [← heardBy_within hname h', ← hsame, heardBy_within hname]
  nodes := by
    have hnodes : (h'.within own).store.nodes = (h.within own).store.nodes := by rw [hsame]
    exact hnodes

/-- A cache that is not there is not brought back, whatever is done. -/
theorem getElem?_performAll_of_none {id : Nat} {h : Hub} (hid : h.caches[id]? = none)
    (as : List Act) (log : List Deed) : (Act.performAll as log h).2.caches[id]? = none :=
  Option.eq_none_iff_forall_ne_some.mpr <| Act.performAll_keeps (P := fun _ => False)
    (fun _ _ _ _ _ hno => hno) fun c hc => by rw [hid] at hc; cases hc

/-- **Those who listen do not interfere.**  Take some watchers, and two calm hubs that are the same as
far as those have them, be it that there are further caches in the one.  Where the same is done to
both, but for acts of others that are put in between in the second, the two hubs are the same to the
watchers after it all, and at each point of the first run they were the same at a point of the second
that belongs to it.  And a cache that was dropped does not come back, whatever is done after it and
whatever its registrations still let it be told. -/
theorem unnoticed (own : Watcher → Bool) :
    (∀ as bs : List Act, Interleaved own as bs → ∀ h₁ h₂ : Hub, h₁.Calm → h₂.Calm →
      h₁.within own = h₂.within own →
        SameFor own (Act.performAll as [] h₁).2 (Act.performAll bs [] h₂).2 ∧
        ∀ as₁, as₁ <+: as → ∃ bs₁, bs₁ <+: bs ∧ Interleaved own as₁ bs₁ ∧
          SameFor own (Act.performAll as₁ [] h₁).2 (Act.performAll bs₁ [] h₂).2) ∧
    ∀ (h : Hub) (kept : Nat → Bool) (id : Nat), kept id = false → ∀ (as : List Act) (e : Event),
      let g := (Act.performAll (.keep kept :: as) [] h).2
      g.caches[id]? = none ∧ tell e (.cache id) g = (g, none) := by
  refine ⟨fun as bs hi h₁ h₂ hc₁ hc₂ hsame => ⟨?_, fun as₁ hpre => ?_⟩, fun h kept id hid as e => ?_⟩
  · exact .of_within (hi.within_performAll hc₁ hc₂ hsame)
  · obtain ⟨bs₁, hbs₁, hi₁⟩ := hi.exists_prefix as₁ hpre
    exact ⟨bs₁, hbs₁, hi₁, .of_within (hi₁.within_performAll hc₁ hc₂ hsame)⟩
  · have hdropped : (h.keepCaches kept).caches[id]? = none := by
      simp only [keepCaches, ExtTreeMap.getElem?_filter', hid]
      cases h.caches[id]? <;> rfl
    intro g
    have hnone : g.caches[id]? = none := getElem?_performAll_of_none hdropped as _
    exact ⟨hnone, by rw [tell, hnone]⟩

/-- A beginning is calm: nothing is stored, nobody is registered, and nothing is announced. -/
theorem calm_initial (caches : ExtTreeMap Nat Cache) : Calm { Hub.empty with caches } :=
  ⟨rfl, fun _ => Std.ExtTreeSet.not_mem_empty, fun _ => rfl⟩

/-- The first cache, and a recorder. -/
def insiders (w : Watcher) : Bool := w = .cache 0 || w = .recorder "log"

/-- The first cache is started, and a record is written twice before the recorder and the cache. -/
def insiderActs : List Act :=
  [.watchChildren "/users" "log", .start 0,
    .write (.create "/users/ann_BROKER" (recordOf "ann" "enc:wp")),
    .watchData "/users/ann_BROKER" "log",
    .write (.set "/users/ann_BROKER" (recordOf "ann" "enc:terces"))]

/-- In between a second cache comes and goes, and somebody else listens for a while. -/
def crowdedActs : List Act :=
  [.watchChildren "/users" "log", .start 1, .start 0, .watchData "/users/ann_BROKER" "other",
    .write (.create "/users/ann_BROKER" (recordOf "ann" "enc:wp")),
    .watchData "/users/ann_BROKER" "log", .keep (· ≠ 1), .unwatchData "/users/ann_BROKER" "other",
    .write (.set "/users/ann_BROKER" (recordOf "ann" "enc:terces"))]

/-- The small hub with a second cache, of another vault, for the same parent. -/
def crowdedHub : Hub :=
  { Hub.empty with caches := sampleHub.caches.insert 1 (.new "/users" ⟨.reversing, "other"⟩) }

theorem interleaved_crowdedActs : Interleaved insiders insiderActs crowdedActs :=
  .common trivial <| .other (.start (by decide)) <| .common trivial <|
    .other (.watchData _ (by decide)) <| .common trivial <| .common trivial <|
    .other (.keep fun id hid => by simp_all [insiders]) <| .other (.unwatchData _ (by decide)) <|
    .common trivial .nil

/-- The crowd makes no difference to the first cache and to the recorder, and the second cache is
gone for good although it is still registered. -/
theorem unnoticed_crowd :
    SameFor insiders (Act.performAll insiderActs [] sampleHub).2
      (Act.performAll crowdedActs [] crowdedHub).2 ∧
    ((Act.performAll crowdedActs [] crowdedHub).2.caches[0]?.bind fun c =>
      (c.lookup? "ann" .broker).map Credential.secret) = some "secret" ∧
    ((Act.performAll crowdedActs [] crowdedHub).2.heardBy "log").length = 2 ∧
    ∀ e, let g := (Act.performAll (.keep (· ≠ 1) :: insiderActs) [] (crowdedHub.start 1).2).2
      ("/users", .cache 1) ∈ g.store.childWatches.entries ∧ tell e (.cache 1) g = (g, none) := by
  have hcaches : crowdedHub.caches.filter (fun id _ => insiders (.cache id))
      = sampleHub.caches.filter fun id _ => insiders (.cache id) :=
    filter_insert_of_not (p := fun id => insiders (.cache id)) (by decide) _ _
  have hsame : sampleHub.within insiders = crowdedHub.within insiders := by
    rw [within, within, hcaches]
    rfl
  obtain ⟨halike, hdropped⟩ := unnoticed insiders
  refine ⟨(halike insiderActs crowdedActs interleaved_crowdedActs sampleHub crowdedHub
    (calm_initial _) (calm_initial _) hsame).1, by decide +kernel, by decide +kernel, fun e => ?_⟩
  exact ⟨by decide +kernel, (hdropped _ (· ≠ 1) 1 (by decide) insiderActs e).2⟩

end Hub

end Gatekeeper
