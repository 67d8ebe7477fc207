import Gatekeeper.Proofs.Cache.Following
import Gatekeeper.Proofs.Hub.Lasting

/-!
# Proofs/Cache/Integrity — a cache stays in order, whatever it is told

`Run.ordered`: at every point of every run, with whatever fails, is made up or breaks off, each entry
of a cache is kept under its own identity, in the map of its own component, which is the component
that the identity names.  So the two maps have no key in common, and the views of the cache agree
with each other (`Cache.Ordered`).

Being told of a record that does not decode, or decodes to a credential of another node, leaves a
cache just as it was (`Cache.Refuses.receive`).
-/

namespace Gatekeeper

open Std (ExtTreeMap)
open Hub

namespace Cache

/-! ## Keyed caches stay keyed -/

/-- Whether a cache is keyed is a matter of its entries. -/
theorem Keyed.of_entries {c c' : Cache} (hc : c.Keyed) (h : c'.entries = c.entries) : c'.Keyed := by
  constructor <;> intro d k x hx <;> rw [h] at hx
  · exact hc.identity_eq hx
  · exact hc.component_eq hx
  · exact hc.username_ne hx
  · exact hc.isSegment hx

theorem Keyed.trackChild {c : Cache} (hc : c.Keyed) (self : Watcher) (name : String) (l : Link) :
    (Cache.trackChild self name c l).1.Keyed := by
  have hc' : { c with watched := c.watched.insert name }.Keyed := hc.of_entries rfl
  rw [Cache.trackChild]
  split
  · exact hc
  · exact hc'.load _ _

theorem Keyed.track (self : Watcher) : ∀ (names : List String) {c : Cache} (l : Link), c.Keyed →
    (Cache.track self names c l).1.Keyed
  | [], _, _, hc => hc
  | name :: names, _, l, hc => Keyed.track self names _ (hc.trackChild self name l)

/-- **A keyed cache is keyed whatever it is told of**, made up or not. -/
theorem Keyed.receive {c : Cache} (hc : c.Keyed) (self : Watcher) (e : Event) (l : Link) :
    (c.receive self e l).1.Keyed := by
  cases e with
  | children path names =>
    rw [Cache.receive]
    split
    · exact hc.track self names l
    · exact hc
  | changed path r =>
    rw [Cache.receive]
    split
    · exact hc.accept path r
    · exact hc
  | deleted path =>
    have hc' : { c with watched := c.watched.erase (Path.lastSegment path) }.Keyed :=
      hc.of_entries rfl
    dsimp only [Cache.receive]
    exact hc'.forget (Path.lastSegment path)

theorem lasting_keyed (z : Limits) (id : Nat) : Lasting z id fun _ c _ => c.Keyed where
  stable _ _ _ _ _ hc := hc
  fresh := keyed_fresh
  fault _ _ hc := hc
  write {_ _ w} _ _ ih := ih.write_of_leads (fun _ _ _ _ hc => hc)
    (fun e _ l hc => hc.receive _ e l) (fun _ _ _ hc => hc) w
  register hc := hc.of_entries rfl
  giveUp hc := hc.of_entries rfl
  settle _ _ hc := (hc.track _ _ _).of_entries rfl

/-! ## What a keyed cache shows -/

/-- **A cache in order**: its entries stand where they belong, and its views agree. -/
structure Ordered (c : Cache) : Prop where
  /-- An entry is kept under its own identity, in the map of its own component, and the identity
  names that component. -/
  kept : ∀ (d : Component) (k : Identity) (x : Credential), (c.entries.part d)[k]? = some x →
    x.identity = k ∧ x.component = d ∧ k.component? = some d
  /-- No key is in both maps. -/
  apart : ∀ k, k ∈ c.entries.keys .controller → k ∉ c.entries.keys .broker
  /-- The identities are listed in ascending order, each of them once. -/
  ascending : c.identities.Pairwise fun i j => i.text < j.text
  /-- They are the identities of all credentials. -/
  mem_identities : ∀ k, k ∈ c.identities ↔ ∃ x ∈ c.all, x.identity = k
  /-- A user is found at a component just as the user's identity is. -/
  agree : ∀ username d, c.get? (.of username d) = c.lookup? username d

variable {c : Cache}

theorem Keyed.component? (hc : c.Keyed) {d : Component} {k : Identity} {x : Credential}
    (h : c.entries.get? d k = some x) : k.component? = some d := by
  rw [← hc.identity_eq h, ← hc.component_eq h]
  exact Identity.component?_of (hc.username_ne h) _

/-- **No key of a keyed cache belongs to both components.** -/
theorem Keyed.disjoint_keys (hc : c.Keyed) :
    (c.entries.keys .controller).Disjoint (c.entries.keys .broker) := by
  intro k h h'
  obtain ⟨x, hx⟩ := Partition.mem_keys.mp h
  obtain ⟨y, hy⟩ := Partition.mem_keys.mp h'
  have heq := (hc.component? hx).symm.trans (hc.component? hy)
  cases heq

/-- The keys at a component are the identities of the credentials there. -/
theorem Keyed.mem_keys (hc : c.Keyed) {d : Component} {k : Identity} :
    k ∈ c.entries.keys d ↔ ∃ x ∈ c.list d, x.identity = k := by
  simp only [Partition.mem_keys, list, Partition.mem_values]
  constructor
  · rintro ⟨x, hx⟩
    exact ⟨x, ⟨k, hx⟩, hc.identity_eq hx⟩
  · rintro ⟨x, ⟨k', hx⟩, rfl⟩
    rw [hc.identity_eq hx]
    exact ⟨x, hx⟩

/-- An identity with nothing before the underscore names nobody, and nobody is kept under it. -/
theorem Keyed.get?_of (hc : c.Keyed) (username : String) (d : Component) :
    c.get? (.of username d) = c.lookup? username d := by
  by_cases hname : username = ""
  · subst hname
    have hnone : (Identity.of "" d).component? = none := by cases d <;> decide
    rw [Cache.get?, hnone, lookup?]
    refine (Option.eq_none_iff_forall_ne_some.mpr fun x hx => ?_).symm
    rw [hc.component? hx] at hnone
    cases hnone
  · exact (lookup?_eq_get? c hname d).symm

/-- **A keyed cache is in order.** -/
theorem ordered_of_keyed (hc : c.Keyed) : c.Ordered where
  kept d k x hx := ⟨hc.identity_eq hx, hc.component_eq hx, hc.component? hx⟩
  apart k h h' := hc.disjoint_keys h h'
  ascending := Identity.ascending_mergeSort <| List.nodup_append.mpr
    ⟨Partition.nodup_keys _ _, Partition.nodup_keys _ _,
      fun _ h _ h' heq => hc.disjoint_keys h (heq ▸ h')⟩
  mem_identities k := by
    simp only [identities, all, List.mem_mergeSort, List.mem_append, hc.mem_keys, or_and_right,
      exists_or]
  agree := hc.get?_of

/-! ## Records that are not taken in -/

/-- The record stands for no credential of this node: it does not decode, or it decodes to one with
another identity. -/
def Refuses (c : Cache) (path : String) (r : Record) : Prop :=
  ∀ x, c.vault.decode r = .ok x → x.identity.text ≠ Path.lastSegment path

theorem Refuses.credentialAt {path : String} {r : Record} (h : c.Refuses path r) :
    c.vault.credentialAt (Path.lastSegment path) r = none :=
  Option.eq_none_iff_forall_ne_some.mpr fun x hx =>
    h x (Vault.credentialAt_eq_some_iff.mp hx).1 (Vault.credentialAt_eq_some_iff.mp hx).2

/-- **Being told of a record that it refuses leaves a cache as it was.** -/
theorem Refuses.receive {path : String} {r : Record} (h : c.Refuses path r) (self : Watcher)
    (l : Link) : c.receive self (.changed path r) l = (c, l) := by
  rw [Cache.receive, accept_eq, h.credentialAt, ite_self]

end Cache

/-- A delivery of a record that a cache refuses leaves it as it was, whoever else is told. -/
theorem Hub.deliver_changed_of_refuses {h : Hub} {id : Nat} {c : Cache}
    (hid : h.caches[id]? = some c) {path : String} {r : Record} (hr : c.Refuses path r) :
    (deliver [.changed path r] h).1.caches[id]? = some c := by
  have hsame : Holds id (fun c' _ => c' = c) h := fun c' hc' => Option.some.inj (hc'.symm.trans hid)
  have htold : Leads id (.changed path r) (fun c' _ => c' = c) fun c' _ => c' = c := by
    rintro c' l rfl
    exact congrArg Prod.fst (hr.receive _ l)
  have hafter : Holds id (fun c' _ => c' = c) (deliver [.changed path r] h).1 := by
    rw [deliver_cons]
    split <;> exact hsame.tellAll (fun _ _ _ _ hc => hc) htold _
  have hin : id ∈ h.caches := (ExtTreeMap.getElem?_eq_some_iff.mp hid).1
  obtain ⟨c', hid', rfl⟩ := hafter.exists_of_mem (((kept_deliver _ h).present id).mpr hin)
  exact hid'

/-! ## Any run -/

/-- **Every cache is in order at every point of every run**: after every act, and after every write
in the middle of one.  No limits are asked for: calls may fail, events may be made up, listeners may
break off.  And where a cache is told of a record that it refuses, it stays as it is. -/
theorem Run.ordered {z : Limits} {log : List Deed} {h : Hub} (hr : Run z log h) {id : Nat}
    {c : Cache} (hid : h.caches[id]? = some c) :
    c.Ordered ∧ (∀ d ∈ log, ∀ c', d.caches[id]? = some c' → c'.Ordered) ∧
      ∀ path r, c.Refuses path r → ∀ g : Hub, g.caches[id]? = some c →
        (deliver [.changed path r] g).1.caches[id]? = some c := by
  have hkeyed := Cache.lasting_keyed z id
  refine ⟨Cache.ordered_of_keyed (hr.course.lasts hkeyed c hid), fun d hd c' hid' => ?_,
    fun path r href g hg => ?_⟩
  · exact Cache.ordered_of_keyed (hr.course.lasts_deeds hkeyed d hd c' hid')
  · exact deliver_changed_of_refuses hg href

/-- Children that do not exist are reported, one of them further below; one cannot be read, a
listener breaks off, and a record is told of that is none. -/
def forgedActs : List Act :=
  [.start 0, .administer sampleAdmin (.addForm (sampleForm "pw")),
    .watchData "/users/ann_BROKER" "log", .arm "log",
    .write (.notify (.children "/users" ["ann_BROKER", "x/ann_BROKER", "bob_CONTROLLER"])),
    .fault .get (.fails .poisoned), .write (.notify (.children "/users" ["_BROKER", "eve"])),
    .write (.notify (.changed "/users/ann_BROKER" (.empty "ann_BROKER"))),
    .write (.notify (.deleted "/users/bob_CONTROLLER"))]

/-- The log and the hub after it. -/
def forgedRun : List Deed × Hub := Act.performAll forgedActs [] sampleHub

/-- The cache is still in order, and stays as it is when the record is told of once more. -/
theorem ordered_forged : ∃ c, forgedRun.2.caches[0]? = some c ∧ c.Ordered ∧
    (c.get? ⟨"ann_BROKER"⟩).isSome ∧
      (deliver [.changed "/users/ann_BROKER" (.empty "ann_BROKER")] forgedRun.2).1.caches[0]?
        = some c := by
  have hrun : Run .boundless forgedRun.1 forgedRun.2 :=
    Run.performAll (.initial new_sampleHub) fun a _ => a.within_boundless
  have hstate : (forgedRun.2.caches[0]?.any fun c => (c.get? ⟨"ann_BROKER"⟩).isSome) = true := by
    decide +kernel
  obtain ⟨c, hid, hc⟩ := (Option.any_eq_true _ _).mp hstate
  obtain ⟨hordered, -, hrefused⟩ := hrun.ordered hid
  refine ⟨c, hid, hordered, hc, hrefused _ _ (fun x hx => ?_) _ hid⟩
  -- an empty record decodes to nothing
  obtain ⟨u, p, d, o, s, hu, -⟩ := Vault.decode_eq_ok_iff.mp hx
  simp [Record.empty] at hu

end Gatekeeper
