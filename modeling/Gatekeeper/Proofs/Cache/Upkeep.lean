import Gatekeeper.Proofs.Cache.Rounds
import Gatekeeper.Proofs.Hub.Lasting

/-!
# Proofs/Cache/Upkeep — what every cache keeps up in the course of a run

The chronicle of a node always begins with the record that the node holds (`Course.head_chronicle`).
What a cache may hold of a child can then be read off the child's chronicle: a `Reading` says what
that is, and if it is `Lawful` every cache is `Steady` in it through every course of genuine writes
(`Course.steady`).

A cache that is ready watches all the children there are (`Course.covers`).  While it is being
started it is registered for their coming already, so a child that races add after the listing is
watched before the listed ones are taken in (`Drift.covers`).
-/

namespace Gatekeeper

open Std (ExtTreeMap)
open Hub

/-! ## Genuine writes -/

/-- **What a genuine write does where nobody breaks off**: it writes a record, it deletes a node, or
there is nothing to do. -/
theorem Hub.genuine_cases {h : Hub} (hu : h.Unarmed) {w : Write} (hw : w.IsGenuine) :
    (∃ path r, (w = .create path r ∨ w = .set path r) ∧
        h.write w = (.ok true, (deliver (h.store.putEvents path r)
          { h with link.store := h.store.put path r }).1)) ∨
      (∃ path, w = .remove path ∧
        h.write w = (.ok true, (deliver (h.store.deleteEvents path)
          { h with link.store := h.store.delete path }).1)) ∨
      (WriteError.tookEffect (h.write w).1 = false ∧ (h.write w).2 = h) := by
  obtain ⟨e, -, he⟩ | ⟨effect, heff, -⟩ := write_cases w h
  · exact .inr (.inr (by rw [he]; exact ⟨rfl, rfl⟩))
  · have he := hu.write_of_effect heff
    obtain ⟨path, r, hput, rfl⟩ | ⟨path, rfl, rfl⟩ | ⟨path, rfl, -, rfl⟩ | ⟨e, rfl, rfl⟩ :=
      Store.effect_cases heff
    · exact .inl ⟨path, r, hput, he⟩
    · exact .inr (.inl ⟨path, rfl, he⟩)
    · exact .inr (.inr (by rw [he]; exact ⟨rfl, rfl⟩))
    · exact hw.elim

/-! ## Chronicles -/

theorem chronicle_put (q : String) (log : List Deed) {w : Write} {path : String} {r : Record}
    (hw : w = .create path r ∨ w = .set path r) (caches : ExtTreeMap Nat Cache) :
    chronicle q (log ++ [⟨w, caches⟩])
      = if path = q then (r, caches) :: chronicle q log else chronicle q log := by
  obtain rfl | rfl := hw <;> exact chronicle_concat _ _ _

theorem chronicle_remove (q : String) (log : List Deed) (path : String)
    (caches : ExtTreeMap Nat Cache) :
    chronicle q (log ++ [⟨.remove path, caches⟩]) = if path = q then [] else chronicle q log :=
  chronicle_concat _ _ _

/-- A write that is delivered in part is still a write: its deed is what its effect did. -/
theorem head_chronicle_write {q : String} {log : List Deed} {h : Hub} (w : Write)
    (hh : (chronicle q log).head?.map Prod.fst = h.store.nodes[q]?) :
    (chronicle q (log ++ Deed.of w (h.write w).1 (h.write w).2.caches)).head?.map Prod.fst
      = (h.write w).2.store.nodes[q]? := by
  obtain ⟨e, -, he⟩ | ⟨effect, heff, he⟩ := write_cases w h
  · rw [he, Deed.of_eq_nil rfl, List.append_nil]
    exact hh
  · have hnodes := (kept_deliver effect.events { h with link.store := effect.store }).nodes
    rw [he, hnodes]
    obtain ⟨path, r, hput, rfl⟩ | ⟨path, rfl, rfl⟩ | ⟨path, rfl, -, rfl⟩ | ⟨e, rfl, rfl⟩ :=
      Store.effect_cases heff
    · rw [Deed.of_delivered, chronicle_put q log hput]
      by_cases hq : path = q
      · simp [hq, Store.put]
      · simp [hq, hh, Store.put, ExtTreeMap.getElem?_insert]
    · rw [Deed.of_delivered, chronicle_remove]
      by_cases hq : path = q
      · simp [hq, Store.delete]
      · simp [hq, hh, Store.delete, ExtTreeMap.getElem?_erase]
    · rw [Deed.of_eq_nil rfl, List.append_nil]
      exact hh
    · rw [Deed.of_delivered, chronicle_concat]
      exact hh

/-- **The chronicle of a node begins with the record that the node holds**, whatever the run. -/
theorem Course.head_chronicle {z : Limits} {log : List Deed} {h : Hub} (hc : Course z log h)
    (q : String) : (chronicle q log).head?.map Prod.fst = h.store.nodes[q]? :=
  hc.records (P := fun log nodes => (chronicle q log).head?.map Prod.fst = nodes[q]?) (by simp)
    fun _ => head_chronicle_write _

/-- A node without a chronicle is none. -/
theorem Course.chronicle_eq_nil_iff {z : Limits} {log : List Deed} {h : Hub}
    (hc : Course z log h) {q : String} : chronicle q log = [] ↔ q ∉ h.store.nodes := by
  have hh := hc.head_chronicle q
  rw [ExtTreeMap.mem_iff_isSome_getElem?, ← hh]
  simp

/-! ## Reading a chronicle -/

/-- The caches are such that this one, if it is there, watches the name. -/
def Watching (id : Nat) (name : String) (caches : ExtTreeMap Nat Cache) : Prop :=
  ∃ c, caches[id]? = some c ∧ name ∈ c.watched

theorem watching_iff {id : Nat} {name : String} {caches : ExtTreeMap Nat Cache} :
    (caches[id]?.any fun c : Cache => c.watched.contains name) = true
      ↔ Watching id name caches := by
  simp [Watching, Option.any_eq_true]

instance (id : Nat) (name : String) (caches : ExtTreeMap Nat Cache) :
    Decidable (Watching id name caches) :=
  decidable_of_iff _ watching_iff

/-- What the entry of a name may be in a cache with this number and vault, in the light of the
chronicle of the name's node. -/
abbrev Reading :=
  Nat → Vault → String → List (Record × ExtTreeMap Nat Cache) → Option Credential → Prop

/-- A reading that goes along with what a cache does. -/
structure Reading.Lawful (G : Reading) : Prop where
  /-- Of a node that does not exist nothing is known. -/
  nil : ∀ id vault name, G id vault name [] none
  /-- A record is taken in by a cache that watches its node. -/
  push : ∀ id vault name r caches ch x, Watching id name caches → G id vault name ch x →
    G id vault name ((r, caches) :: ch) ((vault.credentialAt name r).or x)
  /-- It does not matter if that is done again. -/
  again : ∀ id vault name r caches ch x, G id vault name ((r, caches) :: ch) x →
    G id vault name ((r, caches) :: ch) ((vault.credentialAt name r).or x)
  /-- A cache that did not watch the node can load it. -/
  load : ∀ id vault name r caches ch, ch = [] ∨ ¬Watching id name caches →
    G id vault name ((r, caches) :: ch) (vault.credentialAt name r)

/-- What a reading makes of the chronicles, as an expectation. -/
def Reading.expectation (G : Reading) (id : Nat) (parent : String) (vault : Vault)
    (log : List Deed) : Expectation :=
  fun name => G id vault name (chronicle (Path.child parent name) log)

/-- The cache follows the store by a reading of the chronicles. -/
def Reading.Steady (G : Reading) (log : List Deed) (id : Nat) (c : Cache) (l : Link) : Prop :=
  Keeps id c.parent c.vault (· ∈ c.watched) (G.expectation id c.parent c.vault log)
    (· ∈ c.watched) (G.expectation id c.parent c.vault log) c l

variable {G : Reading} {E : Expectation} {z : Limits} {id : Nat} {log : List Deed} {h : Hub}

/-- A cache that keeps up is steady, whatever was sure to be watched. -/
theorem Reading.Steady.of_keeps {parent : String} {vault : Vault} {V W : String → Prop} {c : Cache}
    {l : Link} (h : Keeps id parent vault V (G.expectation id parent vault log) W
      (G.expectation id parent vault log) c l) (hVW : ∀ n, V n → W n) : G.Steady log id c l := by
  obtain ⟨hf, hE⟩ := h
  obtain rfl := hf.parent_eq
  obtain rfl := hf.vault_eq
  exact ⟨hf.mono (fun _ hn => hn) fun _ _ _ hx => hx,
    hE.mono (fun n hn => hf.watching n (hVW n hn)) fun _ _ hx => hx⟩

theorem stable_steady : Stable id (G.Steady log id) :=
  fun c _ _ hl hk => stable_keeps c _ _ hl hk

/-- Writing to an old node does not change what is watched. -/
theorem watched_put_old {c : Cache} (hid : h.caches[id]? = some c) {path : String}
    (hin : path ∈ h.store.nodes) (r : Record) :
    Holds id (fun c' _ => c'.watched = c.watched) (deliver (h.store.putEvents path r)
      { h with link.store := h.store.put path r }).1 := by
  have hes : h.store.putEvents path r = [.changed path r] := by
    rw [Store.putEvents, if_pos hin, List.nil_append]
  have h₀ : Holds id (fun c' _ => c'.watched = c.watched)
      { h with link.store := h.store.put path r } := holds_of_some hid rfl
  have hround := h₀.tellAll (e := .changed path r) (fun _ _ _ _ hw => hw) (fun c' l hw => ?_)
    ((h.store.put path r).watchersOf (.changed path r))
  · rw [hes, deliver_cons]
    split <;> exact hround
  · rw [Cache.receive]
    split
    · rw [Cache.accept_watched]
      exact hw
    · exact hw

/-- What was watched is watched once a record has been written, and what is to be watched then. -/
theorem watched_put (hu : h.Unarmed) {c : Cache} (hid : h.caches[id]? = some c)
    (hf : Follows id c.parent c.vault (· ∈ c.watched) E c h.link) (path : String) (r : Record) :
    Holds id (fun c' _ => ∀ n, WatchedAfter id c.parent h path r c n → n ∈ c'.watched)
      (deliver (h.store.putEvents path r) { h with link.store := h.store.put path r }).1 := by
  have hf' : Follows id c.parent c.vault (· ∈ c.watched) (fun _ _ => True) c h.link :=
    hf.mono (fun _ hn => hn) fun _ _ _ _ => trivial
  have hk := hf'.put (F := fun _ _ => True) hu hid path r
    ⟨fun _ _ _ => trivial, fun _ _ _ => trivial⟩ (fun _ _ _ _ _ => trivial)
    (fun _ _ _ _ => trivial) (fun _ _ _ _ => trivial)
  exact hk.imp fun c' l hk => hk.1.watching

/-- **A steady cache is steady after a record has been written.** -/
theorem Reading.Lawful.put (hG : G.Lawful) (hc : Course z log h) (hu : h.Unarmed)
    (hspare : ∀ f, (Call.get, f) ∈ h.link.faults → ∀ id vault name ch, G id vault name ch none)
    {w : Write} {path : String} {r : Record} (hw : w = .create path r ∨ w = .set path r) {h' : Hub}
    (hh' : h' = (deliver (h.store.putEvents path r)
      { h with link.store := h.store.put path r }).1)
    (hs : Holds id (G.Steady log id) h) :
    Holds id (G.Steady (log ++ [⟨w, h'.caches⟩]) id) h' := by
  intro c' hc'
  obtain ⟨c, hid⟩ := exists_of_deliver (h := h) hh' rfl hc'
  obtain ⟨hf, hE⟩ := hs c hid
  let F := G.expectation id c.parent c.vault (log ++ [⟨w, h'.caches⟩])
  have hself : ∀ n, path = Path.child c.parent n →
      F n = G id c.vault n ((r, h'.caches) :: chronicle path log) := by
    rintro n rfl
    simp only [F, Reading.expectation, chronicle_put _ log hw, ↓reduceIte]
  have hother : ∀ n, path ≠ Path.child c.parent n →
      F n = G.expectation id c.parent c.vault log n := by
    intro n hn
    simp only [F, Reading.expectation, chronicle_put _ log hw, hn, ↓reduceIte]
  have hwatched : ∀ n ∈ c.watched, Watching id n h'.caches := fun n hn =>
    ⟨c', hc', (hh' ▸ watched_put hu hid hf path r) c' hc' n (.inl hn)⟩
  -- a node that is not watched is new, or it is still not watched
  have hload : ∀ n, n ∉ c.watched → path = Path.child c.parent n →
      chronicle path log = [] ∨ ¬Watching id n h'.caches := by
    intro n hn hp
    by_cases hold : path ∈ h.store.nodes
    · refine .inr fun ⟨c₁, hc₁, hn₁⟩ => hn ?_
      have heq : c₁.watched = c.watched := (hh' ▸ watched_put_old hid hold r) c₁ hc₁
      rwa [← heq]
    · exact .inl (hc.chronicle_eq_nil_iff.mpr hold)
  have hE' : Expects c.parent c.vault (· ∈ c.watched) F
      { h.link with store := h.store.put path r } := by
    refine hE.of_node path (fun q hq => by simp [Store.put, ExtTreeMap.getElem?_insert, hq])
      (fun n hn hout hp => ?_) (fun n hp => ⟨fun hn => hn, fun x hx => by rwa [hother n hp]⟩)
      fun f hf n => hspare f hf _ _ _ _
    rw [hself n hp]
    simpa [Store.put] using hG.load id c.vault n r h'.caches _ (hload n hout hp)
  have hk := hf.put hu hid path r hE'
    (fun n x hp hn hx => by
      rw [hself n hp]
      exact hG.push _ _ _ _ _ _ _ (hwatched n hn) (hp ▸ hx))
    (fun n x hp hx => by
      rw [hself n hp] at hx ⊢
      exact hG.again _ _ _ _ _ _ _ hx)
    (fun n x hp hx => by rwa [hother n hp])
  exact .of_keeps ((hh' ▸ hk) c' hc') fun n hn => .inl hn

/-- **A steady cache is steady after a deletion.** -/
theorem Reading.Lawful.delete (hG : G.Lawful) (hu : h.Unarmed)
    (hspare : ∀ f, (Call.get, f) ∈ h.link.faults → ∀ id vault name ch, G id vault name ch none)
    (path : String) {h' : Hub}
    (hh' : h' = (deliver (h.store.deleteEvents path)
      { h with link.store := h.store.delete path }).1)
    (hs : Holds id (G.Steady log id) h) :
    Holds id (G.Steady (log ++ [⟨.remove path, h'.caches⟩]) id) h' := by
  intro c' hc'
  obtain ⟨c, hid⟩ := exists_of_deliver (h := h) hh' rfl hc'
  obtain ⟨hf, hE⟩ := hs c hid
  let F := G.expectation id c.parent c.vault (log ++ [⟨.remove path, h'.caches⟩])
  have hother : ∀ n, path ≠ Path.child c.parent n →
      F n = G.expectation id c.parent c.vault log n := by
    intro n hn
    simp only [F, Reading.expectation, chronicle_remove, hn, ↓reduceIte]
  have hE' : Expects c.parent c.vault (fun n => n ∈ c.watched ∧ path ≠ Path.child c.parent n) F
      { h.link with store := h.store.delete path } := by
    refine hE.of_node path (fun q hq => by simp [Store.delete, ExtTreeMap.getElem?_erase, hq])
      (fun n hn hout hp => ?_) (fun n hp => ⟨fun hn => ⟨hn, hp⟩, fun x hx => by rwa [hother n hp]⟩)
      fun f hf n => hspare f hf _ _ _ _
    have hself : F n = G id c.vault n [] := by
      simp only [F, Reading.expectation, chronicle_remove, hp, ↓reduceIte]
    rw [hself]
    simpa [Store.delete] using hG.nil id c.vault n
  have hk := hf.delete hu hid path hE' fun n x hp hx => by rwa [hother n hp]
  exact .of_keeps ((hh' ▸ hk) c' hc') fun n hn => .inl hn

/-- **A steady cache is steady after any genuine write.** -/
theorem Reading.Lawful.write (hG : G.Lawful) (hc : Course z log h) (hu : h.Unarmed)
    (hspare : ∀ f, (Call.get, f) ∈ h.link.faults → ∀ id vault name ch, G id vault name ch none)
    {w : Write} (hw : w.IsGenuine) (hs : Holds id (G.Steady log id) h) :
    Holds id (G.Steady (log ++ Deed.of w (h.write w).1 (h.write w).2.caches) id) (h.write w).2 := by
  obtain ⟨path, r, hput, he⟩ | ⟨path, rfl, he⟩ | ⟨hnone, he⟩ := genuine_cases hu hw
  · rw [he]
    exact hG.put hc hu hspare hput rfl hs
  · rw [he]
    exact hG.delete hu hspare path rfl hs
  · rw [Deed.of_eq_nil hnone, he, List.append_nil]
    exact hs

/-! ## Steady caches -/

/-- A cache that has not looked at the store yet is steady where there is nothing to see. -/
theorem Reading.Lawful.steady_fresh (hG : G.Lawful) (parent : String) (vault : Vault)
    (order : Component → Arrangement Identity Credential) :
    G.Steady [] id (.fresh parent vault order) .empty := by
  refine ⟨⟨rfl, rfl, Cache.keyed_fresh parent vault order, fun hp => absurd rfl hp, ?_, ?_, ?_, ?_,
    ?_, ?_⟩, ⟨fun n _ _ => ?_, ?_⟩⟩
  · simp [Cache.fresh]
  · simp [Cache.fresh]
  · simp [Link.empty, Store.empty, Watches.empty]
  · exact fun n hn => hn
  · exact fun n _ => Cache.get?_fresh parent vault order ⟨n⟩
  · simp [Cache.fresh]
  · exact hG.nil id vault n
  · simp [Link.empty]

/-- Entering a phase for which a cache is registered keeps it steady. -/
theorem Reading.Steady.enter {c : Cache} {l l' : Link} (h : G.Steady log id c l) (phase : Phase)
    (stamped : Bool) (hnodes : l'.store.nodes = l.store.nodes)
    (hdata : l'.store.dataWatches = l.store.dataWatches) (hfaults : l'.faults = l.faults)
    (hphase : phase ≠ .uninitialized → (c.parent, .cache id) ∈ l'.store.childWatches.entries) :
    G.Steady log id { c with phase, stamped } l' := by
  obtain ⟨hf, hE⟩ := h
  refine ⟨⟨rfl, rfl, ⟨hf.keyed.1, hf.keyed.2, hf.keyed.3, hf.keyed.4⟩, hphase, hf.segment, ?_, ?_,
    hf.watching, hf.absent, hf.expected⟩, ⟨?_, ?_⟩⟩
  · rw [hdata]
    exact hf.registered
  · rw [hdata]
    exact hf.home
  · rw [hnodes]
    exact hE.fresh
  · rw [hfaults]
    exact hE.spared

/-- Taking in a listing keeps a cache steady that is registered for more. -/
theorem Reading.Steady.settle {c : Cache} {l : Link} (h : G.Steady log id c l)
    (hphase : c.phase ≠ .uninitialized) {names : List String}
    (hnames : ∀ n ∈ names, Path.IsSegment n) :
    G.Steady log id { (c.track (.cache id) names l).1 with phase := .ready, stamped := true }
      (c.track (.cache id) names l).2 := by
  have hakin := Cache.akin_track (.cache id) names c l
  have ht : G.Steady log id (c.track (.cache id) names l).1 (c.track (.cache id) names l).2 :=
    .of_keeps ⟨h.1.track h.2 hnames, h.2.track names c⟩ fun n hn => .inl hn
  refine ht.enter .ready true rfl rfl rfl fun _ => ?_
  exact ht.1.attached (by rwa [hakin.phase_eq])

/-- **Being steady lasts**, where writes are genuine and nobody breaks off.  Where reads may fail,
the reading has to allow for nothing being known. -/
theorem Reading.Lawful.lasting (hG : G.Lawful) (hwrites : ∀ w, z.writes w → w.IsGenuine)
    (harming : ¬z.arming) (hspare : z.faults .get → ∀ id vault name ch, G id vault name ch none) :
    Lasting z id (G.Steady · id) where
  stable _ := stable_steady
  fresh := hG.steady_fresh
  fault f hcall hs := by
    obtain ⟨hf, hE⟩ := hs
    refine ⟨{ hf with }, hE.fresh, fun g hg n => ?_⟩
    obtain hg | hg := List.mem_append.mp hg
    · exact hE.spared g hg n
    · cases List.mem_singleton.mp hg
      exact hspare hcall _ _ _ _
  write hc hw ih := by
    refine hG.write hc (hc.permitted.unarmed harming) (fun f hf => ?_) (hwrites _ hw) ih
    exact hspare (hc.permitted.faults _ hf)
  register hs := hs.enter .syncing _ rfl rfl rfl fun _ => by simp [Link.watchChildren]
  giveUp hs := hs.enter .uninitialized _ rfl rfl rfl fun hp => absurd rfl hp
  settle hphase hnames hs := hs.settle (by simp [hphase]) hnames

/-- **Every cache is steady through every course of genuine writes**, by any lawful reading. -/
theorem Course.steady (hG : G.Lawful) (hwrites : ∀ w, z.writes w → w.IsGenuine)
    (harming : ¬z.arming) (hspare : z.faults .get → ∀ id vault name ch, G id vault name ch none)
    (hc : Course z log h) (id : Nat) : Holds id (G.Steady log id) h :=
  hc.lasts (hG.lasting hwrites harming hspare)

/-! ## Caches that are ready -/

/-- The cache watches every child that is not among the names. -/
def Covers (parent : String) (names : List String) (c : Cache) (l : Link) : Prop :=
  ∀ n ∈ l.store.children parent, n ∈ names ∨ n ∈ c.watched

theorem Covers.of_nodes {parent : String} {names : List String} {c : Cache} {l l' : Link}
    (h : Covers parent names c l) (hl : l'.store.nodes = l.store.nodes) :
    Covers parent names c l' := by
  intro n hn
  rw [Store.children_congr hl] at hn
  exact h n hn

theorem stable_covers (parent : String) (names : List String) : Stable id (Covers parent names) :=
  fun _ _ _ hl hcov => hcov.of_nodes hl.nodes

/-- A child that comes to be is watched by a cache that is registered for its coming. -/
theorem covers_write {parent : String} {names : List String} (hu : h.Unarmed) {w : Write}
    (hw : w.IsGenuine) (hbare : Path.IsBare parent) {c : Cache} (hid : h.caches[id]? = some c)
    (hf : Follows id parent c.vault (· ∈ c.watched) E c h.link) (hphase : c.phase ≠ .uninitialized)
    (hcov : Covers parent names c h.link) : Holds id (Covers parent names) (h.write w).2 := by
  obtain rfl := hf.parent_eq
  obtain ⟨path, r, hput, he⟩ | ⟨path, rfl, he⟩ | ⟨-, he⟩ := genuine_cases hu hw
  · rw [he]
    intro c' hc' n hn
    have hnodes := (kept_deliver (h.store.putEvents path r)
      { h with link.store := h.store.put path r }).nodes
    have hwatched := watched_put hu hid hf path r c' hc' n
    rw [Store.children_congr hnodes] at hn
    obtain ⟨hseg, hin⟩ := Store.mem_children.mp hn
    by_cases hold : Path.child c.parent n ∈ h.store.nodes
    · exact (hcov n (Store.mem_children.mpr ⟨hseg, hold⟩)).imp_right fun hn => hwatched (.inl hn)
    · obtain rfl : path = Path.child c.parent n := by
        simpa [Store.put, ExtTreeMap.mem_insert, hold] using hin
      exact .inr (hwatched (.inr ⟨hold, Path.parent?_child hseg hbare, hf.attached hphase, hn⟩))
  · rw [he]
    intro c' hc' n hn
    have hnodes := (kept_deliver (h.store.deleteEvents path)
      { h with link.store := h.store.delete path }).nodes
    have hf' : Follows id c.parent c.vault (· ∈ c.watched) (fun _ _ => True) c h.link :=
      hf.mono (fun _ hn => hn) fun _ _ _ _ => trivial
    have hk := hf'.delete (F := fun _ _ => True) hu hid path
      ⟨fun _ _ _ => trivial, fun _ _ _ => trivial⟩ fun _ _ _ _ => trivial
    rw [Store.children_congr hnodes] at hn
    obtain ⟨hseg, hin⟩ := Store.mem_children.mp hn
    simp only [Store.delete, ExtTreeMap.mem_erase, ne_eq, Std.compare_eq_iff_eq] at hin
    exact (hcov n (Store.mem_children.mpr ⟨hseg, hin.2⟩)).imp_right fun hn =>
      (hk c' hc').1.watching n (.inl ⟨hn, hin.1⟩)
  · rw [he]
    exact holds_of_some hid hcov

/-- A reading that says nothing. -/
theorem lawful_true : Reading.Lawful fun _ _ _ _ _ => True :=
  ⟨fun _ _ _ => trivial, fun _ _ _ _ _ _ _ _ _ => trivial, fun _ _ _ _ _ _ _ _ => trivial,
    fun _ _ _ _ _ _ _ => trivial⟩

/-- **Races after a listing do not go unnoticed**: what they add is watched before the listing is
taken in. -/
theorem Drift.covers (hwrites : ∀ w, z.writes w → w.IsGenuine) (harming : ¬z.arming)
    {log₀ : List Deed} {h₀ : Hub} {parent : String} (hc₀ : Course z log₀ h₀)
    (hlist : h₀.Listing id parent) (hbare : Path.IsBare parent) (hd : Drift z log₀ h₀ log h) :
    Holds id (Covers parent (h₀.store.children parent)) h := by
  induction hd with
  | refl => exact fun c _ n hn => .inl hn
  | still _ hs ih => exact ih.of_beside (stable_covers _ _) (by rw [hs.caches]) (hs.beside _)
  | @write log h w hd hw ih =>
    have hc := hc₀.drift hd
    cases hid : h.caches[id]? with
    | none => exact holds_write_of_none hid w _
    | some c =>
      obtain ⟨rfl, hphase⟩ := hd.listing hlist c hid
      have hs := hc.steady lawful_true hwrites harming (fun _ _ _ _ _ => trivial) id c hid
      exact covers_write (hc.permitted.unarmed harming) (hwrites w hw) hbare hid hs.1
        (by simp [hphase]) (ih c hid)

/-- Once a listing has been taken in, nothing remains of it to be watched. -/
theorem Reading.Steady.covers {c : Cache} {l : Link} (h : G.Steady log id c l)
    {names : List String} (hnames : ∀ n ∈ names, Path.IsSegment n)
    (hcov : Covers c.parent names c l) :
    Covers (c.track (.cache id) names l).1.parent [] (c.track (.cache id) names l).1
      (c.track (.cache id) names l).2 := by
  rw [(Cache.akin_track (.cache id) names c l).parent_eq]
  have hf := h.1.track h.2 hnames
  have hl := Cache.beside_track (w := .recorder "") (v := .cache id) (by simp) names c l
  intro n hn
  rw [Store.children_congr hl.nodes] at hn
  exact .inr (hf.watching n (hcov n hn).symm)

/-- **A cache that is ready watches all the children of its parent**, at every point of a course of
genuine writes. -/
theorem Course.covers (hwrites : ∀ w, z.writes w → w.IsGenuine) (harming : ¬z.arming)
    (hc : Course z log h) (id : Nat) :
    Holds id (fun c l => Path.IsBare c.parent → c.phase = .ready → Covers c.parent [] c l) h := by
  have hstable : Stable id fun c l =>
      Path.IsBare c.parent → c.phase = .ready → Covers c.parent [] c l :=
    fun c l l' hl hcov hbare hready => stable_covers _ _ c l l' hl (hcov hbare hready)
  induction hc with
  | initial hnew =>
    intro c hid _ hready
    rw [hnew id c hid] at hready
    cases hready
  | quiet _ hq ih => exact ih.of_beside hstable (by rw [hq.caches]) (hq.beside id)
  | fault f _ _ ih => exact fun c hid hbare hready => (ih c hid hbare hready).of_nodes rfl
  | keep kept _ ih =>
    intro c hid
    refine ih c ?_
    simp only [keepCaches, ExtTreeMap.getElem?_filter', Option.filter_eq_some_iff] at hid
    exact hid.1
  | @write log h w hc hw ih =>
    cases hid : h.caches[id]? with
    | none => exact holds_write_of_none hid w _
    | some c =>
      have hs := hc.steady lawful_true hwrites harming (fun _ _ _ _ _ => trivial) id c hid
      obtain ⟨c₁, hid₁, hakin⟩ := exists_akin_write hid w
      intro c' hc' hbare hready
      obtain rfl : c₁ = c' := Option.some.inj (hid₁.symm.trans hc')
      rw [hakin.parent_eq] at hbare ⊢
      rw [hakin.phase_eq] at hready
      exact covers_write (hc.permitted.unarmed harming) (hwrites w hw) hbare hid hs.1
        (by simp [hready]) (ih c hid hbare hready) c₁ hc'
  | register hc hid hphase ih =>
    refine ih.changeCache hstable (fun hne c l => ?_) ?_
    · exact Link.beside_watchChildren (fun heq => hne (by cases heq; rfl)) l c.parent
    · rintro rfl c - - - hready
      cases hready
  | giveUp hc hlist ih =>
    refine ih.changeCache hstable (fun _ _ l => .refl _ l) ?_
    rintro rfl c - - - hready
    cases hready
  | @settle log₀ log h₀ h k parent hc₀ hlist hd hc ih₀ ih =>
    refine ih.changeCache hstable (fun hne c l => ?_) ?_
    · exact Cache.beside_track (fun heq => hne (by cases heq; rfl)) _ c l
    · rintro rfl c hid - hbare -
      obtain ⟨rfl, -⟩ := hd.listing hlist c hid
      have hakin := Cache.akin_track (.cache k) (h₀.store.children c.parent) c h.link
      have hs := hc.steady lawful_true hwrites harming (fun _ _ _ _ _ => trivial) k c hid
      have hbare' : Path.IsBare c.parent := hakin.parent_eq ▸ hbare
      have hcov := hd.covers hwrites harming hc₀ hlist hbare' c hid
      exact hs.covers (fun n hn => (Store.mem_children.mp hn).1) hcov

/-! ## Caches in a run of genuine writes -/

section Run

variable {faults : Call → Prop} {c : Cache}

/-- **Every cache is steady through every run of genuine writes**, by any lawful reading. -/
theorem Run.steady (hr : Run (.genuine faults) log h) (hG : G.Lawful)
    (hspare : faults .get → ∀ id vault name ch, G id vault name ch none)
    (hid : h.caches[id]? = some c) : G.Steady log id c h.link :=
  hr.course.steady hG (fun _ hw => hw) (fun harm => harm) hspare id c hid

/-- **Every cache follows through every run of genuine writes**, whatever its entries are. -/
theorem Run.follows (hr : Run (.genuine faults) log h) (hid : h.caches[id]? = some c) :
    Follows id c.parent c.vault (· ∈ c.watched) (fun _ _ => True) c h.link :=
  (hr.steady lawful_true (fun _ _ _ _ _ => trivial) hid).1

theorem Run.keyed (hr : Run (.genuine faults) log h) (hid : h.caches[id]? = some c) : c.Keyed :=
  (hr.follows hid).keyed

/-- A cache that is ready watches all the children there are. -/
theorem Run.mem_watched (hr : Run (.genuine faults) log h) (hid : h.caches[id]? = some c)
    (hready : c.phase = .ready) (hbare : Path.IsBare c.parent) {name : String}
    (hn : name ∈ h.store.children c.parent) : name ∈ c.watched := by
  have hcov := hr.course.covers (fun _ hw => hw) (fun harm => harm) id c hid hbare hready
  exact (hcov name hn).resolve_left List.not_mem_nil

end Run

end Gatekeeper
