import Gatekeeper.Proofs.Cache.Upkeep

/-!
# Proofs/Cache/Convergence — a cache that is ready shows the store

`Run.converged`: after any run of genuine writes without failing reads, a cache that is ready holds
of each child just what the last of the records that it has **seen** stands for, and nothing else.
A record that stands for a credential of its node is therefore shown as soon as it is written, and
one that does not leaves what was there before.

What a cache has seen of a node is read off the chronicle (`seen`): the record that it loaded when
it began to watch the node, and those written since.
-/

namespace Gatekeeper

open Std (ExtTreeMap)
open Hub

/-! ## What is expected of an entry -/

/-- The last record of a chronicle that stands for a credential of its node, as that credential. -/
def lastAccepted (vault : Vault) (name : String) (ch : List (Record × ExtTreeMap Nat Cache)) :
    Option Credential :=
  ch.findSome? fun p => vault.credentialAt name p.1

/-- The records that a cache has seen of a node: the newest, and the ones before it back to the one
that was there when the cache began to watch the node. -/
def seen (id : Nat) (name : String) : List (Record × ExtTreeMap Nat Cache) → List Record
  | [] => []
  | (r, caches) :: older => r :: if Watching id name caches then seen id name older else []

/-- What a cache has seen last, among what stands for a credential, is no more than what there
is. -/
theorem findSome?_seen (id : Nat) (vault : Vault) (name : String) :
    ∀ ch : List (Record × ExtTreeMap Nat Cache),
      (seen id name ch).findSome? (vault.credentialAt name) = none ∨
        (seen id name ch).findSome? (vault.credentialAt name) = lastAccepted vault name ch
  | [] => .inl rfl
  | (r, caches) :: older => by
    rw [seen, lastAccepted, List.findSome?_cons, List.findSome?_cons]
    cases hr : vault.credentialAt name r with
    | some x => exact .inr rfl
    | none =>
      by_cases hw : Watching id name caches
      · rw [if_pos hw]
        exact findSome?_seen id vault name older
      · rw [if_neg hw]
        exact .inl rfl

/-- The reading by which an entry is what the cache has seen last. -/
def lastSeen : Reading := fun id vault name ch x =>
  x = (seen id name ch).findSome? (vault.credentialAt name)

/-- Taking in what a record stands for is looking at it first. -/
theorem or_findSome? (vault : Vault) (name : String) (r : Record) (rs : List Record) :
    (r :: rs).findSome? (vault.credentialAt name)
      = (vault.credentialAt name r).or (rs.findSome? (vault.credentialAt name)) := by
  rw [List.findSome?_cons]
  cases vault.credentialAt name r <;> rfl

theorem lawful_lastSeen : lastSeen.Lawful where
  nil _ _ _ := rfl
  push id vault name r caches ch x hw hx := by
    rw [lastSeen, seen, if_pos hw, or_findSome?, hx]
  again id vault name r caches ch x hx := by
    rw [lastSeen, seen, or_findSome?] at hx ⊢
    rw [hx]
    cases vault.credentialAt name r <;> rfl
  load id vault name r caches ch h := by
    have hseen : (if Watching id name caches then seen id name ch else []) = [] := by
      obtain rfl | hno := h
      · exact ite_self _
      · exact if_neg hno
    rw [lastSeen, seen, hseen, or_findSome?]
    cases vault.credentialAt name r <;> rfl

/-! ## Convergence -/

/-- A cache shows the records below its parent. -/
structure Converged (log : List Deed) (h : Hub) (id : Nat) (c : Cache) : Prop where
  /-- Where a child's record stands for a credential, the cache holds just that. -/
  current : ∀ name r x, Path.IsSegment name →
    h.store.nodes[Path.child c.parent name]? = some r → c.vault.credentialAt name r = some x →
      c.get? ⟨name⟩ = some x
  /-- Where it does not, the cache holds nothing, or what the last record that did so stands for. -/
  stale : ∀ name r, Path.IsSegment name →
    h.store.nodes[Path.child c.parent name]? = some r → c.vault.credentialAt name r = none →
      c.get? ⟨name⟩ = none ∨
        c.get? ⟨name⟩ = lastAccepted c.vault name (chronicle (Path.child c.parent name) log)
  /-- In either case, it is what the cache has seen last. -/
  kept : ∀ name ∈ h.store.children c.parent, c.get? ⟨name⟩ = (seen id name
    (chronicle (Path.child c.parent name) log)).findSome? (c.vault.credentialAt name)
  /-- The cache holds nothing under a name that is not a child's. -/
  absent : ∀ name, name ∉ h.store.children c.parent → c.get? ⟨name⟩ = none
  /-- What it lists is what it holds under a child's name. -/
  listed : ∀ x, x ∈ c.all ↔ x.identity.text ∈ h.store.children c.parent ∧
    c.get? x.identity = some x

/-- Both components together list what is found under its identity. -/
theorem Cache.Keyed.mem_all {c : Cache} (hc : c.Keyed) {x : Credential} :
    x ∈ c.all ↔ c.get? x.identity = some x := by
  rw [Cache.all, List.mem_append, hc.mem_list, hc.mem_list, ← and_or_left, and_iff_left_iff_imp]
  intro _
  cases x.component <;> simp

section Ready

variable {faults : Call → Prop} {log : List Deed} {h : Hub} {id : Nat} {c : Cache}

/-- **A cache that is ready holds of a child what it has seen of it last**, where reads do not
fail. -/
theorem Run.get?_of_mem (hr : Run (.genuine faults) log h) (hget : ¬faults .get)
    (hid : h.caches[id]? = some c) (hready : c.phase = .ready) (hbare : Path.IsBare c.parent)
    {name : String} (hn : name ∈ h.store.children c.parent) :
    c.get? ⟨name⟩ = (seen id name (chronicle (Path.child c.parent name) log)).findSome?
      (c.vault.credentialAt name) := by
  have hs := hr.steady lawful_lastSeen (fun hfails => absurd hfails hget) hid
  exact hs.1.expected name (hr.mem_watched hid hready hbare hn)

/-- **A cache holds nothing of what is no child**, where reads do not fail. -/
theorem Run.get?_of_not_mem (hr : Run (.genuine faults) log h) (hget : ¬faults .get)
    (hid : h.caches[id]? = some c) {name : String} (hn : name ∉ h.store.children c.parent) :
    c.get? ⟨name⟩ = none := by
  have hs := hr.steady lawful_lastSeen (fun hfails => absurd hfails hget) hid
  by_cases hw : name ∈ c.watched
  · -- a child that is watched but not there has an empty chronicle
    have hnil : chronicle (Path.child c.parent name) log = [] :=
      hr.course.chronicle_eq_nil_iff.mpr fun hin =>
        hn (Store.mem_children.mpr ⟨hs.1.segment name hw, hin⟩)
    have hx : c.get? ⟨name⟩ = _ := hs.1.expected name hw
    rw [hx, hnil]
    rfl
  · exact hs.1.absent name hw

/-- **A record that stands for a credential of its node is shown.** -/
theorem Run.get?_of_accepted (hr : Run (.genuine faults) log h) (hget : ¬faults .get)
    (hid : h.caches[id]? = some c) (hready : c.phase = .ready) (hbare : Path.IsBare c.parent)
    {name : String} {r : Record} {x : Credential} (hseg : Path.IsSegment name)
    (hnode : h.store.nodes[Path.child c.parent name]? = some r)
    (hx : c.vault.credentialAt name r = some x) : c.get? ⟨name⟩ = some x := by
  have hn : name ∈ h.store.children c.parent :=
    Store.mem_children.mpr ⟨hseg, (ExtTreeMap.getElem?_eq_some_iff.mp hnode).1⟩
  have hhead := hr.course.head_chronicle (Path.child c.parent name)
  obtain ⟨⟨r', caches⟩, hfirst, rfl⟩ := Option.map_eq_some_iff.mp (hhead.trans hnode)
  obtain ⟨older, hch⟩ := List.head?_eq_some_iff.mp hfirst
  rw [hr.get?_of_mem hget hid hready hbare hn, hch, seen, or_findSome?, hx]
  rfl

/-- **A cache that is ready has converged**, at every point of a run of genuine writes in which
reads do not fail, wherever its starts, failed or not, stand in the run and whatever races they
met. -/
theorem Run.converged (hr : Run (.genuine faults) log h) (hget : ¬faults .get)
    (hid : h.caches[id]? = some c) (hready : c.phase = .ready) (hbare : Path.IsBare c.parent) :
    Converged log h id c := by
  have hkept : ∀ name ∈ h.store.children c.parent, c.get? ⟨name⟩ = (seen id name
      (chronicle (Path.child c.parent name) log)).findSome? (c.vault.credentialAt name) :=
    fun name hn => hr.get?_of_mem hget hid hready hbare hn
  have habsent : ∀ name, name ∉ h.store.children c.parent → c.get? ⟨name⟩ = none :=
    fun name hn => hr.get?_of_not_mem hget hid hn
  refine ⟨fun name r x hseg hnode hx => ?_, fun name r hseg hnode _ => ?_, hkept, habsent,
    fun x => ?_⟩
  · exact hr.get?_of_accepted hget hid hready hbare hseg hnode hx
  · have hn : name ∈ h.store.children c.parent :=
      Store.mem_children.mpr ⟨hseg, (ExtTreeMap.getElem?_eq_some_iff.mp hnode).1⟩
    rw [hkept name hn]
    exact findSome?_seen id c.vault name _
  · rw [(hr.keyed hid).mem_all]
    refine ⟨fun hx => ⟨?_, hx⟩, fun hx => hx.2⟩
    by_contra hn
    rw [show c.get? x.identity = none from habsent _ hn] at hx
    cases hx

end Ready

/-- The cache of the small run has converged, and shows the credential that was added. -/
theorem converged_sample : ∃ c, sampleRun.2.caches[0]? = some c ∧
    (c.get? ⟨"ann_BROKER"⟩).isSome ∧ Converged sampleRun.1 sampleRun.2 0 c := by
  have hstate : (sampleRun.2.caches[0]?.any fun c => c.phase = .ready && Path.IsBare c.parent
      && (c.get? ⟨"ann_BROKER"⟩).isSome) = true := by
    decide +kernel
  obtain ⟨c, hid, hc⟩ := (Option.any_eq_true _ _).mp hstate
  simp only [Bool.and_eq_true, decide_eq_true_eq] at hc
  exact ⟨c, hid, hc.2, run_sample.converged (not_not_intro rfl) hid hc.1.1 hc.1.2⟩

end Gatekeeper
