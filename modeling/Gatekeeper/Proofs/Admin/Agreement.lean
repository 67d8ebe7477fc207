import Gatekeeper.Proofs.Admin.Effective
import Gatekeeper.Proofs.Cache.Integrity
import Gatekeeper.Proofs.Cache.Reads
import Gatekeeper.Proofs.Hub.Undisturbed

/-!
# Proofs/Admin/Agreement — what an administrator reads, and what a cache shows

Where reads do not fail, a cache that takes children in holds of each new one what its node stands
for, and of the others what it held before (`Cache.get?_track`).  So there is one more way to say what
a cache shows once it has been started, whatever the store holds: `Hub.start_agrees` says that it
shows a credential if and only if an administrator of the same parent reads it, and it is the one that
was asked for.

The administrator does not look whether it is.  A node may hold the record of someone else, and then
an administrator reads what no cache shows (`not_start_agrees`).
-/

namespace Gatekeeper

open Std (ExtTreeMap)
open Hub

/-! ## A new cache -/

/-- A cache that is new, and takes in the children there are, has of each what its node stands
for. -/
theorem Cache.get?_track_new (id : Nat) {c : Cache} {names : List String} {l : Link}
    {name : String} (hreads : ∀ f, (Call.get, f) ∉ l.faults)
    (hnames : names = l.store.children c.parent)
    (hentries : ∀ k, c.get? k = none) (hwatched : c.watched = ∅) (hname : Path.IsSegment name) :
    (track (.cache id) names c l).1.get? ⟨name⟩
      = l.store.nodes[Path.child c.parent name]?.bind (c.vault.credentialAt name) := by
  have hsegments : ∀ m ∈ names, Path.IsSegment m := by
    rw [hnames]
    exact fun m hm => (Store.mem_children.mp hm).1
  rw [get?_track id hreads hsegments, hentries, hwatched, Option.or_none]
  split
  · rfl
  · next hno =>
    -- what is not among the children has no node
    have hout : Path.child c.parent name ∉ l.store.nodes := fun hin =>
      hno ⟨hnames ▸ Store.mem_children.mpr ⟨hname, hin⟩, by simp⟩
    rw [ExtTreeMap.getElem?_eq_none hout]
    rfl

/-! ## Reading a node without its faults -/

/-- **What an administrator reads** is what the record decodes to, whoever it is. -/
theorem Admin.get_eq_ok_iff {a : Admin} {h : Hub} (hfaults : h.link.faults = []) {username : String}
    {component : Component} {x : Credential} :
    (a.get username component h).1 = .ok x ↔
      ∃ r, h.store.nodes[a.path (addressed username component)]? = some r ∧
        a.vault.decode r = .ok x := by
  have hget := Link.get_of_reads (l := h.link) (by simp [hfaults])
    (a.path (addressed username component))
  rw [get, Hub.get]
  dsimp only
  rw [hget]
  cases h.link.store.nodes[a.path (addressed username component)]? with
  | none => simp
  | some r => simp [mapError_eq_ok_iff]

/-! ## Agreement -/

/-- **A cache that has just been started shows what an administrator reads, if that is what was asked
for.**  Whatever the store holds, where nothing fails and nothing is written in between, a new cache
of the administrator's parent is ready once it has been started.  Then it shows a credential for a
user, whose name has no blanks around it and no separator in it, just if the administrator reads that
credential, and its identity is the one that was asked for. -/
theorem Hub.start_agrees {h : Hub} (hfaults : h.link.faults = [])
    (hu : ∀ point, h.Undisturbed point) {id : Nat} {a : Admin}
    {order : Component → Arrangement Identity Credential}
    (hid : h.caches[id]? = some (.fresh a.parent a.vault order)) :
    ∃ c, (h.start id).1 = .ok () ∧ (h.start id).2.caches[id]? = some c ∧ c.phase = .ready ∧
      ∀ (u : String) (d : Component) (x : Credential), Text.trimmed u = u → Path.IsSegment u →
        (c.lookup? u d = some x ↔
          (a.get u d (h.start id).2).1 = .ok x ∧ x.identity = .of u d) := by
  have hlist : listing a.parent h.link = .ok (h.store.children a.parent) := by
    rw [listing, Link.takeFault, hfaults]
    rfl
  obtain ⟨hok, hlink, hcaches⟩ := start_of_ok hu hid rfl hlist
  -- the cache as it is when it takes the children in, and the link that it reads them through
  let c₀ : Cache := { Cache.fresh a.parent a.vault order with phase := .syncing }
  let l := listened id a.parent h.link
  have hbeside : l.Beside (.recorder "") (c₀.track (.cache id) (h.store.children a.parent) l).2 :=
    Cache.beside_track (by simp) _ c₀ l
  have hnofaults : l.faults = [] := by
    change (Link.takeFrom .list h.link.faults).2 = []
    rw [hfaults]
    rfl
  have hreads : ∀ f, (Call.get, f) ∉ l.faults := by simp [hnofaults]
  have hfaults' : (h.start id).2.link.faults = [] := by
    rw [hlink]
    exact List.subset_nil.mp (hnofaults ▸ hbeside.faults)
  have hnodes : (h.start id).2.store.nodes = h.store.nodes := by
    rw [Hub.store, hlink]
    exact hbeside.nodes
  have hkeyed : (c₀.track (.cache id) (h.store.children a.parent) l).1.Keyed :=
    Cache.Keyed.track _ _ l ((Cache.keyed_fresh a.parent a.vault order).of_entries rfl)
  refine ⟨_, hok, by rw [hcaches, ExtTreeMap.getElem?_insert_self], rfl, fun u d x hu hseg => ?_⟩
  have hname : Path.IsSegment (Identity.of u d).text := Identity.isSegment_of_iff.mpr hseg
  have hshown := Cache.get?_track_new id (c := c₀) hreads
    (Store.children_congr (t := l.store) rfl a.parent) (Cache.get?_fresh a.parent a.vault order)
    rfl hname
  have hlookup : (c₀.track (.cache id) (h.store.children a.parent) l).1.lookup? u d
      = h.store.nodes[Path.child a.parent (Identity.of u d).text]?.bind
        (a.vault.credentialAt (Identity.of u d).text) :=
    (hkeyed.get?_of u d).symm.trans hshown
  rw [Admin.get_eq_ok_iff hfaults', hnodes, Admin.addressed, hu]
  refine (Eq.congr_left hlookup).trans (Option.bind_eq_some_iff.trans ?_)
  simp only [Vault.credentialAt_eq_some_iff]
  constructor
  · rintro ⟨r, hr, hx, hid⟩
    exact ⟨⟨r, hr, hx⟩, congrArg Identity.mk hid⟩
  · rintro ⟨⟨r, hr, hx⟩, hid⟩
    exact ⟨r, hr, hx, congrArg Identity.text hid⟩

/-! ## A node that holds the record of someone else -/

/-- Two records below the parent, of which the second is not the record of whom its node is named
for. -/
def misplacedHub : Hub := (Act.performAll
  [.write (.set "/users/ann_BROKER" (recordOf "ann" "enc:wp")),
    .write (.set "/users/eve_BROKER" (recordOf "bob" "enc:wp"))] [] sampleHub).2

/-- What the second record decodes to. -/
def misplaced : Credential := ⟨"bob", "pw", .broker, .user, ∅, ∅⟩

theorem undisturbed_misplaced (point : RacePoint) : misplacedHub.Undisturbed point :=
  .of_nil (by cases point <;> rfl)

theorem new_misplaced :
    misplacedHub.caches[0]? = some (.new sampleAdmin.parent sampleAdmin.vault) := rfl

/-- What is read for eve is what the second record decodes to. -/
theorem get_misplaced :
    (sampleAdmin.get "eve" .broker (misplacedHub.start 0).2).1 = .ok misplaced := by
  decide +kernel

/-- The first is shown as it is read, and the second is read and not shown. -/
theorem start_agrees_misplaced : ∃ c, (misplacedHub.start 0).2.caches[0]? = some c ∧
    c.lookup? "ann" .broker = some plainName ∧
      (sampleAdmin.get "eve" .broker (misplacedHub.start 0).2).1 = .ok misplaced ∧
        c.lookup? "eve" .broker ≠ some misplaced := by
  obtain ⟨c, -, hid, -, hagree⟩ :=
    Hub.start_agrees (a := sampleAdmin) rfl undisturbed_misplaced new_misplaced
  have hann : (sampleAdmin.get "ann" .broker (misplacedHub.start 0).2).1 = .ok plainName := by
    decide +kernel
  have hann' : plainName.identity = .of "ann" .broker := rfl
  have heve : misplaced.identity ≠ .of "eve" .broker := by decide
  refine ⟨c, hid, (hagree _ _ _ (by decide +kernel) (by decide)).mpr ⟨hann, hann'⟩,
    get_misplaced, fun hshown => heve ?_⟩
  exact ((hagree _ _ _ (by decide +kernel) (by decide)).mp hshown).2

/-- **An administrator may read what no cache shows**: the credential of someone else. -/
theorem not_start_agrees : ¬∀ (h : Hub) (id : Nat) (a : Admin), h.link.faults = [] →
    (∀ point, h.Undisturbed point) → Path.IsBare a.parent →
    h.caches[id]? = some (.new a.parent a.vault) → ∀ c, (h.start id).2.caches[id]? = some c →
      ∀ (u : String) (d : Component) (x : Credential), Text.trimmed u = u → Path.IsSegment u →
        (c.lookup? u d = some x ↔ (a.get u d (h.start id).2).1 = .ok x) := by
  intro hall
  have hstate : (misplacedHub.start 0).2.caches[0]?.map (·.lookup? "eve" .broker) = some none := by
    decide +kernel
  obtain ⟨c, hid, hnone⟩ := Option.map_eq_some_iff.mp hstate
  have hshown := (hall misplacedHub 0 sampleAdmin rfl undisturbed_misplaced (by decide)
    new_misplaced c hid "eve" .broker misplaced (by decide +kernel) (by decide)).mpr get_misplaced
  rw [hnone] at hshown
  cases hshown

end Gatekeeper
