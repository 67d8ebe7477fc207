import Gatekeeper.Proofs.Cache.Convergence
import Gatekeeper.Proofs.Record.RoundTrip
import Gatekeeper.Proofs.Store.Bearer

/-!
# Proofs/Admin/Effective — when an added credential takes effect

`Run.effective`: in a run without faults, a credential that an administrator adds below the parent
of a cache that is ready is listed at once, and found in the cache just as it was added, if and only
if its user's name is a single segment of a path.

A name with a separator is not refused (`not_effective`).  Its node then comes to stand deeper than
the children of the parent, where neither the listing nor the cache looks for it.
-/

namespace Gatekeeper

open Std (ExtTreeMap)
open Hub

/-! ## Adding -/

/-- **What it takes to be added**: the name may be administered, the secret can be hidden, and the
record was created. -/
theorem Admin.add_eq_ok {a : Admin} {x : Credential} {h h' : Hub} {i : Identity}
    (hadd : a.add x h = (.ok i, h')) :
    i = x.identity ∧ ∃ r done, a.vault.encode x = .ok r ∧
      h.submit (.create (a.path x.identity) r) = (.ok done, h') := by
  rw [add] at hadd
  split at hadd
  · split at hadd
    · cases hadd
    · next r hr =>
      split at hadd
      · next done g hsub =>
        cases hadd
        exact ⟨rfl, r, done, hr, hsub⟩
      · cases hadd
      · cases hadd
  · cases hadd

namespace Hub

/-- A write that has a result has put a record in place, if it was to do so. -/
theorem nodes_of_write_create {h h' : Hub} {path : String} {r : Record} {done : Bool}
    (hw : h.write (.create path r) = (.ok done, h')) : h'.store.nodes[path]? = some r := by
  obtain ⟨e, -, he⟩ | ⟨effect, heff, he⟩ := write_cases (.create path r) h
  · rw [he] at hw
    cases hw
  · rw [he] at hw
    obtain rfl : _ = h' := congrArg Prod.snd hw
    rw [(kept_deliver _ _).nodes]
    obtain ⟨_, _, hput, rfl⟩ | ⟨_, hw, -⟩ | ⟨_, hw, -⟩ | ⟨_, hw, -⟩ := Store.effect_cases heff
    · obtain hput | hput := hput <;> cases hput
      simp [Store.put]
    all_goals cases hw

end Hub

/-- Where nothing fails and no race waits for it, an administrator lists just the children there
are. -/
theorem Admin.mem_list {a : Admin} {h : Hub} (hl : h.link.faults = [])
    (hr : h.races .beforeList = []) :
    ∃ ids, (a.list h).1 = .ok ids ∧
      ∀ i : Identity, i ∈ ids ↔ i.text ∈ h.store.children a.parent := by
  refine ⟨((h.store.children a.parent).map Identity.mk).mergeSort fun i j => (compare i j).isLE,
    ?_, fun i => ?_⟩
  · rw [list]
    dsimp only
    rw [Hub.list_of_faultless hl hr]
    rfl
  · rw [List.mem_mergeSort, List.mem_map]
    constructor
    · rintro ⟨name, hname, rfl⟩
      exact hname
    · exact fun hi => ⟨i.text, hi, rfl⟩

/-! ## Taking effect -/

/-- **An added credential takes effect at once, just if its user's name is a segment.**  Where a run
without faults has come to a cache that is ready, and an administrator of the same parent, with the
same vault, adds a credential: the next listing, before any race, names it if and only if the user's
name has no separator in it, and then the cache has the credential as it was added; otherwise the
cache does not have it at all. -/
theorem Run.effective {log : List Deed} {h : Hub} (hr : Run .faultless log h) {id : Nat} {c : Cache}
    (hid : h.caches[id]? = some c) (hready : c.phase = .ready) {a : Admin}
    (hparent : c.parent = a.parent) (hvault : c.vault = a.vault) (hbare : Path.IsBare a.parent)
    (hlawful : a.vault.cipher.Lawful) (hraces : h.races .beforeList = []) {x : Credential}
    (hx : x.Built) {i : Identity} {h' : Hub} (hadd : a.add x h = (.ok i, h')) :
    ∃ c' ids, h'.caches[id]? = some c' ∧ (a.list h').1 = .ok ids ∧
      (x.identity ∈ ids ↔ Path.IsSegment x.username) ∧
      c'.lookup? x.username x.component = if Path.IsSegment x.username then some x else none := by
  obtain ⟨-, r, done, hencode, hsub⟩ := Admin.add_eq_ok hadd
  rw [Hub.submit_of_faultless hr.faults_eq_nil] at hsub
  have hsnd : (h.write (.create (a.path x.identity) r)).2 = h' := by rw [hsub]
  -- the run goes on with the adding
  have hperf : (Act.administer a (.add x)).perform h = h' := congrArg Prod.snd hadd
  have hr' : Run .faultless _ h' :=
    hperf ▸ hr.act (a := .administer a (.add x)) fun w hw => Admin.Task.genuine hw
  obtain ⟨c', hid', hakin⟩ := exists_akin_write hid (.create (a.path x.identity) r)
  rw [hsnd] at hid'
  have hparent' : c'.parent = a.parent := hakin.parent_eq.trans hparent
  have hvault' : c'.vault = a.vault := hakin.vault_eq.trans hvault
  have hraces' : h'.races .beforeList = [] := by rw [← hsnd, write_races, hraces]
  obtain ⟨ids, hids, hmem⟩ := Admin.mem_list (a := a) hr'.faults_eq_nil hraces'
  have hnode : h'.store.nodes[Path.child a.parent x.identity.text]? = some r :=
    nodes_of_write_create hsub
  refine ⟨c', ids, hid', hids, ?_, ?_⟩
  · rw [hmem, Store.mem_children, Credential.identity, Identity.isSegment_of_iff]
    exact and_iff_left (ExtTreeMap.getElem?_eq_some_iff.mp hnode).1
  · rw [Cache.lookup?_eq_get? c' hx.shaped.username_ne]
    split
    · next hseg =>
      refine hr'.get?_of_accepted not_false hid' (hakin.phase_eq.trans hready) (hparent' ▸ hbare)
        (Identity.isSegment_of_iff.mpr hseg) (hparent' ▸ hnode) ?_
      rw [hvault', Vault.credentialAt_eq_some_iff]
      exact ⟨Vault.decode_encode hlawful hx.shaped hencode, rfl⟩
    · next hseg =>
      refine hr'.get?_of_not_mem not_false hid' fun hchild => hseg ?_
      exact Identity.isSegment_of_iff.mp (Store.mem_children.mp hchild).1

/-! ## Names with a separator -/

/-- A store with a cache that has just been started. -/
def startedRun : List Deed × Hub := Act.performAll [.start 0] [] sampleHub

/-- Someone with a name that is a segment. -/
def plainName : Credential := ⟨"ann", "pw", .broker, .user, ∅, ∅⟩

/-- Someone with a separator in the name. -/
def separatorInName : Credential := ⟨"x/y", "pw", .broker, .user, ∅, ∅⟩

theorem run_started : Run .faultless startedRun.1 startedRun.2 := by
  refine Run.performAll (.initial new_sampleHub) fun a ha => ?_
  obtain rfl := List.mem_singleton.mp ha
  trivial

/-- The cache is ready, and the administrator's vault is its own. -/
theorem started_cache : ∃ c, startedRun.2.caches[0]? = some c ∧ c.phase = .ready ∧
    c.parent = sampleAdmin.parent ∧ c.vault = sampleAdmin.vault := by
  have hstate : startedRun.2.caches[0]?.map (fun c => (c.phase, c.parent, c.vault))
      = some (.ready, sampleAdmin.parent, sampleAdmin.vault) := rfl
  obtain ⟨c, hid, hc⟩ := Option.map_eq_some_iff.mp hstate
  exact ⟨c, hid, congrArg Prod.fst hc, congrArg (·.2.1) hc, congrArg (·.2.2) hc⟩

/-- A name that is a segment takes effect. -/
theorem effective_plainName : ∃ c ids h',
    sampleAdmin.add plainName startedRun.2 = (.ok plainName.identity, h') ∧
      h'.caches[0]? = some c ∧ (sampleAdmin.list h').1 = .ok ids ∧ plainName.identity ∈ ids ∧
        c.lookup? "ann" .broker = some plainName := by
  obtain ⟨c, hid, hready, hparent, hvault⟩ := started_cache
  have hadd : sampleAdmin.add plainName startedRun.2
      = (.ok plainName.identity, (sampleAdmin.add plainName startedRun.2).2) :=
    Prod.ext (by decide +kernel) rfl
  have hnew : Credential.new? "ann" "pw" .broker .user = .ok plainName := by decide +kernel
  obtain ⟨c', ids, hid', hids, hmem, hlookup⟩ := run_started.effective hid hready hparent hvault
    (by decide) Cipher.reversing_lawful rfl (.new hnew) hadd
  have hseg : Path.IsSegment plainName.username := by decide
  rw [if_pos hseg] at hlookup
  exact ⟨c', ids, _, hadd, hid', hids, hmem.mpr hseg, hlookup⟩

/-- **A name may hold a separator**, and then a credential that was added does not take effect. -/
theorem not_effective : ¬∀ (log : List Deed) (h : Hub), Run .faultless log h →
    ∀ (id : Nat) (c : Cache), h.caches[id]? = some c → c.phase = .ready → ∀ a : Admin,
      c.parent = a.parent → c.vault = a.vault → Path.IsBare a.parent → a.vault.cipher.Lawful →
      h.races .beforeList = [] → ∀ x : Credential, x.Built → ∀ i h', a.add x h = (.ok i, h') →
        ∃ c' ids, h'.caches[id]? = some c' ∧ (a.list h').1 = .ok ids ∧ x.identity ∈ ids ∧
          c'.lookup? x.username x.component = some x := by
  intro hall
  obtain ⟨c, hid, hready, hparent, hvault⟩ := started_cache
  have hadd : sampleAdmin.add separatorInName startedRun.2
      = (.ok separatorInName.identity, (sampleAdmin.add separatorInName startedRun.2).2) :=
    Prod.ext (by decide +kernel) rfl
  have hnew : Credential.new? "x/y" "pw" .broker .user = .ok separatorInName := by decide +kernel
  obtain ⟨c', ids, -, hids, hmem, -⟩ := hall _ _ run_started 0 c hid hready sampleAdmin hparent
    hvault (by decide) Cipher.reversing_lawful rfl _ (.new hnew) _ _ hadd
  have hempty : (sampleAdmin.list (sampleAdmin.add separatorInName startedRun.2).2).1 = .ok [] := by
    decide +kernel
  rw [hempty] at hids
  cases hids
  cases hmem

end Gatekeeper
