import Gatekeeper.Proofs.Cache.Views
import Gatekeeper.Proofs.Hub.Delivery

/-!
# Proofs/Cache/Following — what a cache keeps up while it follows the store

`Follows` ties a cache to the registrations made for it: it is registered for the record of just the
children that it watches, it holds nothing of a child that it does not watch, and what it holds of
one that it watches is as expected.  What is expected is left open (`Expectation`); it only has to
allow for what loading a child gives (`Expects`).

The events of a write take such an expectation to another one, each in its own way: a listing adds
to what is watched (`Follows.track`), a record that is told of goes into the one entry that it is
for (`Follows.changed`), and a deletion ends the watch (`Follows.deleted`).
-/

namespace Gatekeeper

/-! ## Loading a record -/

theorem Link.mem_of_takeFrom {call : Call} {f : Fault} : ∀ {fs : List (Call × Fault)},
    (takeFrom call fs).1 = some f → (call, f) ∈ fs
  | (c, g) :: rest, h => by
    rw [takeFrom] at h
    split at h
    · next hc =>
      cases h
      exact hc ▸ List.mem_cons_self
    · exact List.mem_cons_of_mem _ (mem_of_takeFrom h)

/-- A read gives what the node holds; a fault for it gives no record. -/
theorem Link.get_cases (l : Link) (path : String) :
    ((∃ f, (Call.get, f) ∈ l.faults) ∧ ∀ r, (l.get path).1 ≠ .ok (some r)) ∨
      (l.get path).1 = .ok l.store.nodes[path]? := by
  rw [get, takeFault]
  cases hf : (takeFrom .get l.faults).1 with
  | none => exact .inr rfl
  | some f =>
    refine .inl ⟨⟨f, mem_of_takeFrom hf⟩, fun r => ?_⟩
    cases f <;> simp

namespace Cache

/-- Loading a child of which nothing is known finds what its node stands for, or nothing when there
was a fault. -/
theorem get?_load {c : Cache} {parent name : String} (l : Link) (hname : Path.IsSegment name)
    (hnone : c.get? ⟨name⟩ = none) :
    ((∃ f, (Call.get, f) ∈ l.faults)
        ∧ (c.load (Path.child parent name) l).1.get? ⟨name⟩ = none) ∨
      (c.load (Path.child parent name) l).1.get? ⟨name⟩
        = l.store.nodes[Path.child parent name]?.bind (c.vault.credentialAt name) := by
  have haccept (r : Record) : (c.accept (Path.child parent name) r).get? ⟨name⟩
      = c.vault.credentialAt name r := by
    rw [get?_accept, Path.lastSegment_child parent hname, hnone]
    simp
  rw [load]
  obtain ⟨hfault, hno⟩ | hok := Link.get_cases l (Path.child parent name)
  · refine .inl ⟨hfault, ?_⟩
    split
    · next r _ heq => exact absurd (congrArg Prod.fst heq) (hno r)
    · exact hnone
  · refine .inr ?_
    split
    · next r _ heq =>
      have hr : l.store.nodes[Path.child parent name]? = some r := by simpa [heq] using hok.symm
      rw [hr]
      exact haccept r
    · next hne heq =>
      cases hr : l.store.nodes[Path.child parent name]? with
      | none => exact hnone
      | some r =>
        rw [hr, heq] at hok
        exact (hne r hok).elim

theorem get?_load_of_ne (c : Cache) (l : Link) {parent name : String} (hname : Path.IsSegment name)
    {k : Identity} (hk : k.text ≠ name) :
    (c.load (Path.child parent name) l).1.get? k = c.get? k := by
  rw [load]
  split
  · rw [get?_accept, Path.lastSegment_child parent hname, if_neg hk]
  · rfl

@[simp] theorem load_watched (c : Cache) (path : String) (l : Link) :
    (c.load path l).1.watched = c.watched := by
  rw [load]
  split
  · exact accept_watched c path _
  · rfl

theorem Keyed.load {c : Cache} (hc : c.Keyed) (path : String) (l : Link) :
    (c.load path l).1.Keyed := by
  rw [Cache.load]
  split
  · exact hc.accept path _
  · exact hc

end Cache

/-! ## The invariant -/

/-- What is expected of the entry of a name. -/
abbrev Expectation := String → Option Credential → Prop

/-- The expectation allows for what a child that is not watched yet would be loaded with. -/
structure Expects (parent : String) (vault : Vault) (W : String → Prop) (E : Expectation)
    (l : Link) : Prop where
  /-- It allows for what the node stands for. -/
  fresh : ∀ name, Path.IsSegment name → ¬W name →
    E name (l.store.nodes[Path.child parent name]?.bind (vault.credentialAt name))
  /-- It allows for nothing at all, if a read may fail. -/
  spared : ∀ f, (Call.get, f) ∈ l.faults → ∀ name, E name none

/-- A cache keeps up with the children that it watches, those of `W` among them, and what it holds
of them is as expected. -/
structure Follows (id : Nat) (parent : String) (vault : Vault) (W : String → Prop)
    (E : Expectation) (c : Cache) (l : Link) : Prop where
  parent_eq : c.parent = parent
  vault_eq : c.vault = vault
  keyed : c.Keyed
  /-- Once a start has begun, it is registered for the parent's children. -/
  attached : c.phase ≠ .uninitialized → (parent, .cache id) ∈ l.store.childWatches.entries
  segment : ∀ name ∈ c.watched, Path.IsSegment name
  /-- It is registered for the records of the children that it watches, -/
  registered : ∀ name ∈ c.watched,
    (Path.child parent name, .cache id) ∈ l.store.dataWatches.entries
  /-- and for no other record. -/
  home : ∀ path, (path, .cache id) ∈ l.store.dataWatches.entries →
    ∃ name ∈ c.watched, path = Path.child parent name
  watching : ∀ name, W name → name ∈ c.watched
  absent : ∀ name, name ∉ c.watched → c.get? ⟨name⟩ = none
  expected : ∀ name ∈ c.watched, E name (c.get? ⟨name⟩)

variable {id : Nat} {parent : String} {vault : Vault} {W V : String → Prop} {E F : Expectation}
  {c : Cache} {l l' : Link}

theorem Expects.mono (h : Expects parent vault W E l) (hWV : ∀ n, W n → V n)
    (hEF : ∀ n x, E n x → F n x) : Expects parent vault V F l where
  fresh n hn hV := hEF _ _ (h.fresh n hn fun hW => hV (hWV n hW))
  spared f hf n := hEF _ _ (h.spared f hf n)

theorem Expects.of_beside {w : Watcher} (h : Expects parent vault W E l) (hl : l.Beside w l') :
    Expects parent vault W E l' where
  fresh n hn hW := by
    rw [hl.nodes]
    exact h.fresh n hn hW
  spared f hf := h.spared f (hl.faults hf)

/-- Where just one node changes, it is that node which the expectation has to be right of. -/
theorem Expects.of_node {s : Store} (h : Expects parent vault W E l) (path : String)
    (hnodes : ∀ q, path ≠ q → s.nodes[q]? = l.store.nodes[q]?)
    (hself : ∀ n, Path.IsSegment n → ¬V n → path = Path.child parent n →
      F n (s.nodes[path]?.bind (vault.credentialAt n)))
    (hother : ∀ n, path ≠ Path.child parent n → (W n → V n) ∧ ∀ x, E n x → F n x)
    (hspare : ∀ f, (Call.get, f) ∈ l.faults → ∀ n, F n none) :
    Expects parent vault V F { l with store := s } where
  fresh n hn hV := by
    by_cases hp : path = Path.child parent n
    · rw [← hp]
      exact hself n hn hV hp
    · obtain ⟨hWV, hEF⟩ := hother n hp
      rw [hnodes _ hp]
      exact hEF _ (h.fresh n hn (mt hWV hV))
  spared f hf n := hspare f hf n

theorem Follows.mono (h : Follows id parent vault W E c l) (hVW : ∀ n, V n → n ∈ c.watched)
    (hEF : ∀ n ∈ c.watched, ∀ x, E n x → F n x) : Follows id parent vault V F c l :=
  { h with watching := hVW, expected := fun n hn => hEF n hn _ (h.expected n hn) }

theorem Follows.of_beside (h : Follows id parent vault W E c l) (hl : l.Beside (.cache id) l') :
    Follows id parent vault W E c l' where
  __ := h
  attached hp := hl.mem_childWatches.mpr (h.attached hp)
  registered n hn := hl.mem_dataWatches.mpr (h.registered n hn)
  home path hp := h.home path (hl.mem_dataWatches.mp hp)

/-- A name is registered for just if it is watched. -/
theorem Follows.mem_watched_iff (h : Follows id parent vault W E c l) {name : String} :
    name ∈ c.watched ↔ (Path.child parent name, .cache id) ∈ l.store.dataWatches.entries := by
  refine ⟨h.registered name, fun hr => ?_⟩
  obtain ⟨n, hn, heq⟩ := h.home _ hr
  rwa [Path.child_injective heq]

/-! ## What each event does to it -/

theorem load_store (c : Cache) (path : String) (l : Link) : (c.load path l).2.store = l.store := by
  rw [Cache.load_snd, Link.get_snd]
  rfl

namespace Cache

theorem childWatches_trackChild (w : Watcher) (name : String) (c : Cache) (l : Link) :
    (trackChild w name c l).2.store.childWatches = l.store.childWatches := by
  rw [trackChild]
  split
  · rfl
  · rw [load_store]
    rfl

theorem childWatches_track (w : Watcher) : ∀ (names : List String) (c : Cache) (l : Link),
    (track w names c l).2.store.childWatches = l.store.childWatches
  | [], _, _ => rfl
  | name :: names, c, l =>
    (childWatches_track w names _ _).trans (childWatches_trackChild w name c l)

/-- Whatever a cache is told of, its registrations for children stay as they are. -/
theorem childWatches_receive (w : Watcher) (e : Event) (c : Cache) (l : Link) :
    (c.receive w e l).2.store.childWatches = l.store.childWatches := by
  cases e with
  | children path names =>
    rw [receive]
    split
    · exact childWatches_track w names c l
    · rfl
  | changed path r => rfl
  | deleted path => rfl

end Cache

theorem Hub.childWatches_tell (e : Event) (w : Watcher) (h : Hub) :
    (tell e w h).1.store.childWatches = h.store.childWatches := by
  cases w with
  | recorder name =>
    rw [tell]
    split <;> rfl
  | cache id =>
    rw [tell]
    split
    · rfl
    · exact Cache.childWatches_receive (.cache id) e _ h.link

/-- Telling of an event leaves the registrations for children as they are. -/
theorem Hub.childWatches_tellAll (e : Event) : ∀ (ws : List Watcher) (h : Hub),
    (tellAll e ws h).1.store.childWatches = h.store.childWatches
  | [], _ => rfl
  | w :: ws, h => by
    rw [tellAll_cons]
    split
    · exact (childWatches_tellAll e ws _).trans (childWatches_tell e w h)
    · exact childWatches_tell e w h

theorem Follows.trackChild (h : Follows id parent vault W E c l)
    (hE : Expects parent vault W E l) {name : String} (hname : Path.IsSegment name) :
    Follows id parent vault (fun n => W n ∨ n = name) E (Cache.trackChild (.cache id) name c l).1
      (Cache.trackChild (.cache id) name c l).2 := by
  rw [Cache.trackChild]
  split
  · next hin =>
    exact h.mono (fun n hn => hn.elim (h.watching n) fun heq => heq ▸ hin) fun _ _ _ hx => hx
  · next hout =>
    obtain rfl := h.parent_eq
    -- the cache once it watches the child, and the link once it is registered for it
    let c₁ : Cache := { c with watched := c.watched.insert name }
    let l₁ : Link := l.watchData (Path.child c.parent name) (.cache id)
    have hakin : c₁.Akin (c₁.load (Path.child c.parent name) l₁).1 := Cache.akin_load _ _ _
    have hmem : ∀ n, n ∈ (c₁.load (Path.child c.parent name) l₁).1.watched ↔
        n = name ∨ n ∈ c.watched := by
      intro n
      rw [Cache.load_watched, Std.ExtTreeSet.mem_insert, Std.compare_eq_iff_eq, eq_comm (a := n)]
    have hne : ∀ n, n ≠ name → (c₁.load (Path.child c.parent name) l₁).1.get? ⟨n⟩ = c.get? ⟨n⟩ :=
      fun n hn => Cache.get?_load_of_ne c₁ l₁ hname hn
    refine { parent_eq := hakin.parent_eq, vault_eq := hakin.vault_eq.trans h.vault_eq,
             keyed := ?keyed, attached := ?attached, segment := ?segment,
             registered := ?registered, home := ?home, watching := ?watching,
             absent := ?absent, expected := ?expected }
    case keyed =>
      have hk₁ : c₁.Keyed := ⟨h.keyed.1, h.keyed.2, h.keyed.3, h.keyed.4⟩
      exact hk₁.load _ _
    case attached =>
      intro hphase
      rw [load_store]
      exact h.attached (by rwa [hakin.phase_eq] at hphase)
    case segment =>
      intro n hn
      rcases (hmem n).mp hn with rfl | hn
      · exact hname
      · exact h.segment n hn
    case registered =>
      intro n hn
      rw [load_store, Link.watchData, Watches.mem_entries_add]
      rcases (hmem n).mp hn with rfl | hn
      · exact .inr rfl
      · exact .inl (h.registered n hn)
    case home =>
      intro path hp
      rw [load_store, Link.watchData, Watches.mem_entries_add] at hp
      rcases hp with hp | hp
      · obtain ⟨n, hn, rfl⟩ := h.home path hp
        exact ⟨n, (hmem n).mpr (.inr hn), rfl⟩
      · exact ⟨name, (hmem name).mpr (.inl rfl), (Prod.ext_iff.mp hp).1⟩
    case watching =>
      rintro n (hn | rfl)
      · exact (hmem n).mpr (.inr (h.watching n hn))
      · exact (hmem n).mpr (.inl rfl)
    case absent =>
      intro n hn
      have hn' := not_or.mp (mt (hmem n).mpr hn)
      rw [hne n hn'.1]
      exact h.absent n hn'.2
    case expected =>
      intro n hn
      by_cases heq : n = name
      · subst heq
        rcases Cache.get?_load (c := c₁) l₁ hname (h.absent n hout) with ⟨⟨f, hf⟩, hx⟩ | hx
        · rw [hx]
          exact hE.spared f hf n
        · rw [hx, show c₁.vault = vault from h.vault_eq]
          exact hE.fresh n hname (mt (h.watching n) hout)
      · rw [hne n heq]
        exact h.expected n (((hmem n).mp hn).resolve_left heq)

/-- What tracking a child does to the link is nothing to the expectation. -/
theorem Expects.track (h : Expects parent vault W E l) (names : List String) (c : Cache) :
    Expects parent vault W E (Cache.track (.cache id) names c l).2 :=
  h.of_beside (w := .recorder "") (Cache.beside_track (by simp) names c l)

/-- **A listing adds to what is watched.** -/
theorem Follows.track : ∀ {names : List String} {W : String → Prop} {c : Cache} {l : Link},
    Follows id parent vault W E c l → Expects parent vault W E l →
      (∀ n ∈ names, Path.IsSegment n) →
        Follows id parent vault (fun n => W n ∨ n ∈ names) E (Cache.track (.cache id) names c l).1
          (Cache.track (.cache id) names c l).2
  | [], _, _, _, h, _, _ => h.mono (fun n hn => h.watching n (by simpa using hn)) fun _ _ _ hx => hx
  | name :: names, W, c, l, h, hE, hnames => by
    have h₁ := h.trackChild hE (hnames name List.mem_cons_self)
    have hE₁ : Expects parent vault (fun n => W n ∨ n = name) E
        (Cache.trackChild (.cache id) name c l).2 :=
      (hE.mono (fun _ => .inl) fun _ _ hx => hx).of_beside (w := .recorder "")
        (Cache.beside_trackChild (by simp) name c l)
    have h₂ := h₁.track hE₁ fun n hn => hnames n (List.mem_cons_of_mem _ hn)
    refine h₂.mono (fun n hn => h₂.watching n ?_) fun _ _ _ hx => hx
    rcases hn with hn | hn
    · exact .inl (.inl hn)
    · exact (List.mem_cons.mp hn).elim (fun heq => .inl (.inr heq)) .inr

/-- **A record that is told of goes into the one entry that it is for.** -/
theorem Follows.changed (h : Follows id parent vault W E c l) {name : String}
    (hname : Path.IsSegment name) {r : Record}
    (hself : ∀ x, E name x → F name ((vault.credentialAt name r).or x))
    (hother : ∀ n x, n ≠ name → E n x → F n x) :
    Follows id parent vault W F (c.receive (.cache id) (.changed (Path.child parent name) r) l).1
      (c.receive (.cache id) (.changed (Path.child parent name) r) l).2 := by
  rw [Cache.receive, Path.lastSegment_child parent hname]
  split
  · next hin =>
    have hakin := Cache.akin_accept c (Path.child parent name) r
    have hget : ∀ n, (c.accept (Path.child parent name) r).get? ⟨n⟩ =
        if n = name then (vault.credentialAt name r).or (c.get? ⟨n⟩) else c.get? ⟨n⟩ := by
      intro n
      rw [Cache.get?_accept, Path.lastSegment_child parent hname, h.vault_eq]
    refine ⟨hakin.parent_eq.trans h.parent_eq, hakin.vault_eq.trans h.vault_eq,
      h.keyed.accept _ _, fun hp => h.attached (by rwa [hakin.phase_eq] at hp), ?_, ?_, ?_, ?_,
      ?_, ?_⟩
    · simpa using h.segment
    · simpa using h.registered
    · simpa using h.home
    · simpa using h.watching
    · intro n hn
      rw [Cache.accept_watched] at hn
      rw [hget, if_neg fun heq : n = name => hn (heq ▸ hin)]
      exact h.absent n hn
    · intro n hn
      rw [Cache.accept_watched] at hn
      rw [hget]
      split
      · next heq =>
        subst heq
        exact hself _ (h.expected n hn)
      · next heq => exact hother n _ heq (h.expected n hn)
  · next hout =>
    exact h.mono h.watching fun n hn x hx =>
      hother n x (fun (heq : n = name) => hout (heq ▸ hn)) hx

/-- **A deletion ends the watch.** -/
theorem Follows.deleted (h : Follows id parent vault W E c l) {name : String}
    (hname : Path.IsSegment name) (hW : ¬W name) :
    Follows id parent vault W E (c.receive (.cache id) (.deleted (Path.child parent name)) l).1
        (c.receive (.cache id) (.deleted (Path.child parent name)) l).2 ∧
      name ∉ (c.receive (.cache id) (.deleted (Path.child parent name)) l).1.watched := by
  rw [Cache.receive, Path.lastSegment_child parent hname]
  have hakin := Cache.akin_forget { c with watched := c.watched.erase name } name
  have hmem : ∀ n, n ∈ ({ c with watched := c.watched.erase name }.forget name).watched ↔
      n ≠ name ∧ n ∈ c.watched := by
    intro n
    rw [Cache.forget_watched, Std.ExtTreeSet.mem_erase, ne_eq, Std.compare_eq_iff_eq,
      ← ne_eq, ne_comm]
  have hget : ∀ n, ({ c with watched := c.watched.erase name }.forget name).get? ⟨n⟩ =
      if n = name then none else c.get? ⟨n⟩ :=
    fun n => Cache.get?_forget { c with watched := c.watched.erase name } name ⟨n⟩
  refine ⟨{ parent_eq := hakin.parent_eq.trans h.parent_eq,
            vault_eq := hakin.vault_eq.trans h.vault_eq, keyed := ?keyed,
            attached := fun hp => h.attached (by rwa [hakin.phase_eq] at hp),
            segment := ?segment, registered := ?registered, home := ?home,
            watching := ?watching, absent := ?absent, expected := ?expected }, ?gone⟩
  case keyed =>
    have hk₁ : { c with watched := c.watched.erase name }.Keyed :=
      ⟨h.keyed.1, h.keyed.2, h.keyed.3, h.keyed.4⟩
    exact hk₁.forget name
  case segment =>
    exact fun n hn => h.segment n ((hmem n).mp hn).2
  case registered =>
    intro n hn
    obtain ⟨hne, hn⟩ := (hmem n).mp hn
    rw [Link.unwatchData, Watches.mem_entries_drop]
    refine ⟨h.registered n hn, fun heq => hne ?_⟩
    exact Path.child_injective (Prod.ext_iff.mp heq).1
  case home =>
    intro path hp
    rw [Link.unwatchData, Watches.mem_entries_drop] at hp
    obtain ⟨n, hn, rfl⟩ := h.home path hp.1
    refine ⟨n, (hmem n).mpr ⟨fun heq => hp.2 (by rw [heq]), hn⟩, rfl⟩
  case watching =>
    exact fun n hn => (hmem n).mpr ⟨fun heq => hW (heq ▸ hn), h.watching n hn⟩
  case absent =>
    intro n hn
    rw [hget]
    split
    · rfl
    · next hne => exact h.absent n fun hin => hn ((hmem n).mpr ⟨hne, hin⟩)
  case expected =>
    intro n hn
    obtain ⟨hne, hn⟩ := (hmem n).mp hn
    rw [hget, if_neg hne]
    exact h.expected n hn
  case gone =>
    exact fun hin => ((hmem name).mp hin).1 rfl

end Gatekeeper
