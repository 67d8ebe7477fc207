import Gatekeeper.Proofs.Cache.Following
import Gatekeeper.Proofs.Store.Effect

/-!
# Proofs/Cache/Rounds — a cache that follows, through the events of one write

A write changes the records first and tells of it afterwards, event by event.  `Keeps` is what holds
of a cache in between: what it follows, and what loading a child would now be expected to give.
Each kind of event takes it on (`keeps_siblings`, `keeps_changed`, `keeps_deleted`), and together
they take a cache through the writing of a record (`Follows.put`) and through a deletion
(`Follows.delete`).
-/

namespace Gatekeeper

open Hub

variable {id : Nat} {parent : String} {vault : Vault} {V W : String → Prop} {E F : Expectation}

/-- A cache follows by one expectation, and loads by another. -/
def Keeps (id : Nat) (parent : String) (vault : Vault) (V : String → Prop) (F : Expectation)
    (W : String → Prop) (E : Expectation) (c : Cache) (l : Link) : Prop :=
  Follows id parent vault W E c l ∧ Expects parent vault V F l

theorem stable_keeps : Stable id (Keeps id parent vault V F W E) :=
  fun _ _ _ hl hk => ⟨hk.1.of_beside hl, hk.2.of_beside hl⟩

/-! ## One event -/

/-- Children that are listed are watched by a cache that is told of them. -/
theorem keeps_children {h : Hub} (hu : h.Unarmed) (hVW : ∀ n, V n → W n)
    (hFE : ∀ n x, F n x → E n x) {path : String} {names : List String}
    (hnames : ∀ n ∈ names, Path.IsSegment n) (hk : Holds id (Keeps id parent vault V F W E) h) :
    Holds id (Keeps id parent vault V F (fun n => W n ∨ (path = parent ∧
        (parent, .cache id) ∈ h.store.childWatches.entries ∧ n ∈ names)) E)
      (tellAll (.children path names) (h.store.watchersOf (.children path names)) h).1 := by
  refine hk.round stable_keeps stable_keeps (hu.tellAll _ _) ?_ ?_ ?_
  · rintro - - hmem c l ⟨hf, hE⟩
    rw [Cache.receive]
    split
    · next hpath =>
      refine ⟨?_, hE.track names c⟩
      have hf' := hf.track (hE.mono hVW hFE) hnames
      refine hf'.mono (fun n hn => hf'.watching n ?_) fun _ _ _ hx => hx
      exact hn.imp_right fun hn => hn.2.2
    · next hpath =>
      refine ⟨hf.mono (fun n hn => hf.watching n (hn.resolve_right ?_)) fun _ _ _ hx => hx, hE⟩
      exact fun hn => hpath (hn.1.trans hf.parent_eq.symm)
  · rintro c ⟨hf, hE⟩ hmem
    refine ⟨hf.mono (fun n hn => hf.watching n (hn.resolve_right ?_)) fun _ _ _ hx => hx, hE⟩
    rintro ⟨rfl, hreg, -⟩
    exact hmem (Watches.mem_forPath.mpr hreg)
  · exact fun c l hk => ⟨hk.1.mono (fun n hn => hk.1.watching n (.inl hn)) fun _ _ _ hx => hx, hk.2⟩

/-- The event that tells of a path's siblings adds to what is watched. -/
theorem keeps_siblings {h : Hub} (hu : h.Unarmed) (hVW : ∀ n, V n → W n)
    (hFE : ∀ n x, F n x → E n x) (s : Store) (path : String)
    (hk : Holds id (Keeps id parent vault V F W E) h) :
    Holds id (Keeps id parent vault V F (fun n => W n ∨ (Path.parent? path = some parent ∧
        (parent, .cache id) ∈ h.store.childWatches.entries ∧ n ∈ s.children parent)) E)
      (deliver (s.siblingEvent path) h).1 := by
  rw [Store.siblingEvent]
  split
  · next q hq =>
    rw [hu.deliver_singleton]
    have hsegments : ∀ n ∈ s.children q, Path.IsSegment n := fun n hn =>
      (Store.mem_children.mp hn).1
    refine (keeps_children hu hVW hFE hsegments hk).imp fun c l hk => ?_
    refine ⟨hk.1.mono (fun n hn => hk.1.watching n ?_) fun _ _ _ hx => hx, hk.2⟩
    refine hn.imp_right fun hsibling => ?_
    obtain ⟨hp, hreg, hn⟩ := hsibling
    obtain rfl : q = parent := Option.some.inj (hq.symm.trans hp)
    exact ⟨rfl, hreg, hn⟩
  · next hq =>
    refine hk.imp fun c l hk => ⟨hk.1.mono (fun n hn => ?_) fun _ _ _ hx => hx, hk.2⟩
    refine hk.1.watching n (hn.resolve_right fun hp => ?_)
    rw [hq] at hp
    cases hp.1

/-- The path of a child that a cache is registered for determines the child. -/
theorem Follows.child_of_registered {c : Cache} {l : Link} (hf : Follows id parent vault W E c l)
    {path : String} (h : (path, .cache id) ∈ l.store.dataWatches.entries) :
    ∃ name, Path.IsSegment name ∧ path = Path.child parent name := by
  obtain ⟨n, hn, rfl⟩ := hf.home path h
  exact ⟨n, hf.segment n hn, rfl⟩

/-- A record that is told of is taken in where it is watched for. -/
theorem keeps_changed {h : Hub} (hu : h.Unarmed) (hFE : ∀ n x, F n x → E n x) {path : String}
    {r : Record}
    (hself : ∀ n x, path = Path.child parent n → E n x → F n ((vault.credentialAt n r).or x))
    (hother : ∀ n x, path ≠ Path.child parent n → E n x → F n x)
    (hk : Holds id (Keeps id parent vault V F W E) h) :
    Holds id (Keeps id parent vault V F W F)
      (tellAll (.changed path r) (h.store.watchersOf (.changed path r)) h).1 := by
  refine hk.round stable_keeps stable_keeps (hu.tellAll _ _) ?_ ?_ ?_
  · rintro c₀ ⟨hf₀, -⟩ hmem c l ⟨hf, hE⟩
    obtain ⟨n, hn, rfl⟩ := hf₀.child_of_registered (Watches.mem_forPath.mp hmem)
    refine ⟨hf.changed hn (fun x => hself n x rfl) fun m x hm => hother m x fun heq => ?_, hE⟩
    exact hm (Path.child_injective heq).symm
  · rintro c ⟨hf, hE⟩ hmem
    refine ⟨hf.mono hf.watching fun n hn x => hother n x ?_, hE⟩
    rintro rfl
    exact hmem (Watches.mem_forPath.mpr (hf.registered n hn))
  · exact fun c l hk => ⟨hk.1.mono hk.1.watching fun n _ x => hFE n x, hk.2⟩

/-- A node that is said to be deleted is not watched any more. -/
theorem keeps_deleted {h : Hub} (hu : h.Unarmed) {path : String}
    (hW : ∀ n, path = Path.child parent n → ¬W n)
    (hk : Holds id (Keeps id parent vault V F W E) h) :
    Holds id (fun c l => Keeps id parent vault V F W E c l
        ∧ ∀ n, path = Path.child parent n → n ∉ c.watched)
      (tellAll (.deleted path) (h.store.watchersOf (.deleted path)) h).1 := by
  refine hk.round stable_keeps (fun c l l' hl hk => ⟨stable_keeps c l l' hl hk.1, hk.2⟩)
    (hu.tellAll _ _) ?_ ?_ ?_
  · rintro c₀ ⟨hf₀, -⟩ hmem c l ⟨hf, hE⟩
    obtain ⟨n, hn, rfl⟩ := hf₀.child_of_registered (Watches.mem_forPath.mp hmem)
    obtain ⟨hf', hout⟩ := hf.deleted hn (hW n rfl)
    refine ⟨⟨hf', ?_⟩, fun m hm => Path.child_injective hm ▸ hout⟩
    exact hE.of_beside (w := .recorder "") (Link.beside_unwatchData (by simp) l _)
  · rintro c ⟨hf, hE⟩ hmem
    refine ⟨⟨hf, hE⟩, ?_⟩
    rintro n rfl hn
    exact hmem (Watches.mem_forPath.mpr (hf.registered n hn))
  · exact fun c l hk => hk.1

/-! ## One write -/

/-- The names that are watched for sure once a record has been written: those watched before, and
if the node is a new child, its siblings and itself. -/
def WatchedAfter (id : Nat) (parent : String) (h : Hub) (path : String) (r : Record) (c : Cache)
    (name : String) : Prop :=
  name ∈ c.watched ∨ path ∉ h.store.nodes ∧ Path.parent? path = some parent ∧
    (parent, .cache id) ∈ h.store.childWatches.entries ∧
      name ∈ (h.store.put path r).children parent

/-- **A cache follows the writing of a record.**  The new expectation is the old one but for the
node's own name, where it allows for taking the record in. -/
theorem Follows.put {h : Hub} (hu : h.Unarmed) {c : Cache} (hid : h.caches[id]? = some c)
    (hf : Follows id parent vault (· ∈ c.watched) E c h.link) (path : String) (r : Record)
    (hE : Expects parent vault (· ∈ c.watched) F { h.link with store := h.store.put path r })
    (hold : ∀ n x, path = Path.child parent n → n ∈ c.watched → E n x →
      F n ((vault.credentialAt n r).or x))
    (hnew : ∀ n x, path = Path.child parent n → F n x → F n ((vault.credentialAt n r).or x))
    (hother : ∀ n x, path ≠ Path.child parent n → E n x → F n x) :
    Holds id (Keeps id parent vault (· ∈ c.watched) F (WatchedAfter id parent h path r c) F)
      (deliver (h.store.putEvents path r) { h with link.store := h.store.put path r }).1 := by
  let h₀ : Hub := { h with link.store := h.store.put path r }
  have hu₀ : h₀.Unarmed := hu
  -- until the node is told of, its entry may be as it was
  let M : Expectation := fun n x => F n x ∨ path = Path.child parent n ∧ n ∈ c.watched ∧ E n x
  have hk₀ : Holds id (Keeps id parent vault (· ∈ c.watched) F (· ∈ c.watched) M) h₀ := by
    refine holds_of_some hid ⟨⟨hf.parent_eq, hf.vault_eq, hf.keyed, hf.attached, hf.segment,
      hf.registered, hf.home, hf.watching, hf.absent, fun n hn => ?_⟩, hE⟩
    by_cases hp : path = Path.child parent n
    · exact .inr ⟨hp, hn, hf.expected n hn⟩
    · exact .inl (hother n _ hp (hf.expected n hn))
  let sibs := if path ∈ h.store.nodes then [] else (h.store.put path r).siblingEvent path
  have hk₁ : Holds id (Keeps id parent vault (· ∈ c.watched) F
      (WatchedAfter id parent h path r c) M) (deliver sibs h₀).1 := by
    by_cases hin : path ∈ h.store.nodes
    · have hsibs : sibs = [] := if_pos hin
      rw [hsibs]
      refine hk₀.imp fun c' l hk => ⟨hk.1.mono (fun n hn => ?_) fun _ _ _ hx => hx, hk.2⟩
      exact hk.1.watching n (hn.resolve_right fun hnew => hnew.1 hin)
    · have hsibs : sibs = (h.store.put path r).siblingEvent path := if_neg hin
      rw [hsibs]
      refine (keeps_siblings hu₀ (fun _ hn => hn) (fun _ _ => .inl) _ path hk₀).imp
        fun c' l hk => ⟨hk.1.mono (fun n hn => ?_) fun _ _ _ hx => hx, hk.2⟩
      exact hk.1.watching n (hn.imp_right fun hnew => hnew.2)
  have hu₁ : (deliver sibs h₀).1.Unarmed := hu₀.of_kept (kept_deliver _ _)
  rw [Store.putEvents, hu₀.deliver_append, hu₁.deliver_singleton]
  refine keeps_changed hu₁ (fun _ _ => .inl) (fun n x hp hx => ?_) (fun n x hp hx => ?_) hk₁
  · exact hx.elim (hnew n x hp) fun hx => hold n x hp hx.2.1 hx.2.2
  · exact hx.resolve_right fun hx => hp hx.1

/-- The names that are watched for sure once a node has been deleted: those watched before but for
its own, and its siblings, if it is a child. -/
def WatchedBeside (id : Nat) (parent : String) (h : Hub) (path : String) (c : Cache)
    (name : String) : Prop :=
  (name ∈ c.watched ∧ path ≠ Path.child parent name) ∨ Path.parent? path = some parent ∧
    (parent, .cache id) ∈ h.store.childWatches.entries ∧
      name ∈ (h.store.delete path).children parent

/-- **A cache follows a deletion.**  What is expected of the deleted node's name does not matter, as
it is not watched any more. -/
theorem Follows.delete {h : Hub} (hu : h.Unarmed) {c : Cache} (hid : h.caches[id]? = some c)
    (hf : Follows id parent vault (· ∈ c.watched) E c h.link) (path : String)
    (hE : Expects parent vault (fun n => n ∈ c.watched ∧ path ≠ Path.child parent n) F
      { h.link with store := h.store.delete path })
    (hother : ∀ n x, path ≠ Path.child parent n → E n x → F n x) :
    Holds id (Keeps id parent vault (fun n => n ∈ c.watched ∧ path ≠ Path.child parent n) F
        (WatchedBeside id parent h path c) F)
      (deliver (h.store.deleteEvents path)
        { h with link.store := h.store.delete path }).1 := by
  let h₀ : Hub := { h with link.store := h.store.delete path }
  have hu₀ : h₀.Unarmed := hu
  have hk₀ : Holds id (Keeps id parent vault (fun n => n ∈ c.watched ∧ path ≠ Path.child parent n) F
      (fun n => n ∈ c.watched ∧ path ≠ Path.child parent n)
      fun n x => path ≠ Path.child parent n → F n x) h₀ :=
    holds_of_some hid ⟨⟨hf.parent_eq, hf.vault_eq, hf.keyed, hf.attached, hf.segment,
      hf.registered, hf.home, fun n hn => hn.1, hf.absent,
      fun n hn hp => hother n _ hp (hf.expected n hn)⟩, hE⟩
  rw [Store.deleteEvents, hu₀.deliver_cons]
  have hu₁ := hu₀.of_kept (kept_tellAll (.deleted path) (h₀.store.watchersOf (.deleted path)) h₀)
  have hk₁ := keeps_deleted hu₀ (fun n hp hn => hn.2 hp) hk₀
  have hreg := childWatches_tellAll (.deleted path) (h₀.store.watchersOf (.deleted path)) h₀
  refine (keeps_siblings hu₁ (fun _ hn => hn) (fun _ _ hx => hx) _ path (hk₁.imp ?_)).imp
    fun c' l hk => ⟨hk.1.mono (fun n hn => hk.1.watching n ?_) fun _ _ _ hx => hx, hk.2⟩
  · rintro c' l ⟨⟨hf', hE'⟩, hout⟩
    exact ⟨hf'.mono hf'.watching fun n hn x hx => hx fun hp => hout n hp hn, hE'⟩
  · exact hn.imp_right fun hsibling => ⟨hsibling.1, hreg ▸ hsibling.2.1, hsibling.2.2⟩

end Gatekeeper
