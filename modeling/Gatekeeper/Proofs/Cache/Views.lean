import Gatekeeper.Cache.Basic
import Gatekeeper.Proofs.Record.Format
import Gatekeeper.Proofs.Store.Path

/-!
# Proofs/Cache/Views — what a cache shows of its entries, and how taking in a record changes it

Every entry of a cache is kept under its own identity and component (`Cache.Keyed`), so that the
views agree (`Keyed.mem_list`), and then a look-up by identity is all there is to know of a cache:
`get?_accept` and `get?_forget` say what the two ways to change the entries do to it.
-/

namespace Gatekeeper

open Std (ExtTreeMap TransOrd)

/-! ## Views of the entries -/

namespace Partition

variable {κ ν : Type} [Ord κ] [TransOrd κ] [Std.LawfulEqOrd κ] {p : Partition κ ν} {c : Component}

/-- A shelf lists the entries that it has, whatever the order. -/
theorem mem_list_shelf {k : κ} {v : ν} : (k, v) ∈ (p.shelf c).list ↔ p.get? c k = some v := by
  rw [(p.shelf c).perm_list.mem_iff, ExtTreeMap.mem_toList_iff_getElem?_eq_some]
  rfl

theorem mem_values {v : ν} : v ∈ p.values c ↔ ∃ k, p.get? c k = some v := by
  simp [values, mem_list_shelf]

theorem mem_keys {k : κ} : k ∈ p.keys c ↔ ∃ v, p.get? c k = some v := by
  simp [keys, mem_list_shelf]

theorem nodup_keys (p : Partition κ ν) (c : Component) : (p.keys c).Nodup := by
  rw [keys, ((p.shelf c).perm_list.map Prod.fst).nodup_iff, ExtTreeMap.map_fst_toList_eq_keys]
  exact (p.part c).distinct_keys.imp fun hne heq => hne (Std.compare_eq_iff_eq.mpr heq)

end Partition

namespace Cache

/-- Every entry is kept under its own identity and component, and its identity is a name that a
node can have. -/
structure Keyed (c : Cache) : Prop where
  identity_eq : ∀ {d k x}, c.entries.get? d k = some x → x.identity = k
  component_eq : ∀ {d k x}, c.entries.get? d k = some x → x.component = d
  username_ne : ∀ {d k x}, c.entries.get? d k = some x → x.username ≠ ""
  isSegment : ∀ {d k x}, c.entries.get? d k = some x → Path.IsSegment k.text

theorem get?_blank (order : Component → Arrangement Identity Credential) (d : Component)
    (k : Identity) : (Partition.blank order).get? d k = none := by
  simp [Partition.get?, Partition.part, Partition.shelf_blank, Shelf.empty]

section Fresh

variable (parent : String) (vault : Vault) (order : Component → Arrangement Identity Credential)

theorem get?_fresh (k : Identity) : (fresh parent vault order).get? k = none := by
  simp [Cache.get?, fresh, get?_blank]

theorem keyed_fresh : (fresh parent vault order).Keyed := by
  constructor <;> intro d k x hx <;> simp [fresh, get?_blank] at hx

end Fresh

theorem Keyed.get?_identity {c : Cache} (hc : c.Keyed) {d : Component} {k : Identity}
    {x : Credential} (h : c.entries.get? d k = some x) : c.get? k = some x := by
  have hk : k.component? = some d := by
    rw [← hc.identity_eq h, ← hc.component_eq h]
    exact Identity.component?_of (hc.username_ne h) _
  rw [Cache.get?, hk]
  exact h

/-- **The credentials at a component are those found under their identities.** -/
theorem Keyed.mem_list {c : Cache} (hc : c.Keyed) {d : Component} {x : Credential} :
    x ∈ c.list d ↔ c.get? x.identity = some x ∧ x.component = d := by
  rw [list, Partition.mem_values]
  constructor
  · rintro ⟨k, hk⟩
    rw [hc.identity_eq hk]
    exact ⟨hc.get?_identity hk, hc.component_eq hk⟩
  · rintro ⟨hx, rfl⟩
    obtain ⟨d, hd, hget⟩ := Option.bind_eq_some_iff.mp hx
    rw [hc.component_eq hget]
    exact ⟨_, hget⟩

/-- Looking a user up is looking up the user's identity. -/
theorem lookup?_eq_get? (c : Cache) {username : String} (h : username ≠ "") (d : Component) :
    c.lookup? username d = c.get? (.of username d) := by
  rw [lookup?, Cache.get?, Identity.component?_of h]
  rfl

/-! ## Taking in and forgetting -/

theorem accept_eq (c : Cache) (path : String) (r : Record) :
    c.accept path r = match c.vault.credentialAt (Path.lastSegment path) r with
      | some x => { c with entries := c.entries.insert x.component x.identity x }
      | none => c := by
  rw [accept, Vault.credentialAt]
  cases c.vault.decode r with
  | error e => rfl
  | ok x => by_cases h : x.identity.text = Path.lastSegment path <;> simp [h]

@[simp] theorem accept_watched (c : Cache) (path : String) (r : Record) :
    (c.accept path r).watched = c.watched := by
  rw [accept_eq]; split <;> rfl

@[simp] theorem forget_watched (c : Cache) (name : String) :
    (c.forget name).watched = c.watched := by
  rw [forget]; split <;> rfl

@[simp] theorem accept_order (c : Cache) (path : String) (r : Record) :
    (c.accept path r).order = c.order := by
  rw [accept_eq]
  split
  · exact funext fun d => Partition.order_edit ..
  · rfl

@[simp] theorem forget_order (c : Cache) (name : String) : (c.forget name).order = c.order := by
  rw [forget]
  split
  · exact funext fun d => Partition.order_edit ..
  · rfl

/-- **Taking in a record** puts what it stands for under the node's name, and else nothing. -/
theorem get?_accept (c : Cache) (path : String) (r : Record) (k : Identity) :
    (c.accept path r).get? k =
      if k.text = Path.lastSegment path then
        (c.vault.credentialAt (Path.lastSegment path) r).or (c.get? k)
      else c.get? k := by
  rw [accept_eq]
  cases hx : c.vault.credentialAt (Path.lastSegment path) r with
  | none => simp
  | some x =>
    have hid := Vault.identity_of_credentialAt hx
    have hcomp := Vault.component?_of_credentialAt hx
    by_cases hk : k.text = Path.lastSegment path
    · obtain rfl : k = x.identity := by rw [hid, ← hk]
      simp [Cache.get?, hid, hcomp]
    · have hne : x.identity ≠ k := fun h => hk (by rw [← h, hid])
      rw [Cache.get?, if_neg hk]
      refine congrArg (Option.bind k.component?) (funext fun d => ?_)
      by_cases hd : d = x.component
      · rw [hd, Partition.get?_insert_self, if_neg hne]
      · exact Partition.get?_insert_of_ne hd _ _ _

/-- **Forgetting a name** leaves nothing under it, and the rest as it was. -/
theorem get?_forget (c : Cache) (name : String) (k : Identity) :
    (c.forget name).get? k = if k.text = name then none else c.get? k := by
  rw [forget]
  by_cases hk : k.text = name
  · obtain rfl : k = ⟨name⟩ := by rw [← hk]
    cases hcomp : (Identity.mk name).component? with
    | none => simp [Cache.get?, hcomp]
    | some d => simp [Cache.get?, hcomp]
  · have hne : Identity.mk name ≠ k := fun h => hk (by rw [← h])
    simp only [hk, ↓reduceIte]
    split
    · next d _ =>
      refine congrArg (Option.bind k.component?) (funext fun e => ?_)
      by_cases he : e = d
      · rw [he, Partition.get?_erase_self, if_neg hne]
      · exact Partition.get?_erase_of_ne he _ _
    · rfl

theorem Keyed.accept {c : Cache} (hc : c.Keyed) (path : String) (r : Record) :
    (c.accept path r).Keyed := by
  rw [accept_eq]
  split
  · next x hx =>
    have hid := Vault.identity_of_credentialAt hx
    have hname := Vault.username_ne_of_credentialAt hx
    have hnew : ∀ {d k y}, (c.entries.insert x.component x.identity x).get? d k = some y →
        (d = x.component ∧ k = x.identity ∧ y = x) ∨ c.entries.get? d k = some y := by
      intro d k y hy
      by_cases hd : d = x.component
      · subst hd
        rw [Partition.get?_insert_self] at hy
        split at hy
        · next hk => exact .inl ⟨rfl, hk.symm, (Option.some.inj hy).symm⟩
        · exact .inr hy
      · rw [Partition.get?_insert_of_ne hd] at hy
        exact .inr hy
    constructor <;> intro d k y hy <;> rcases hnew hy with ⟨rfl, rfl, rfl⟩ | hy
    · rfl
    · exact hc.identity_eq hy
    · rfl
    · exact hc.component_eq hy
    · exact hname
    · exact hc.username_ne hy
    · rw [hid]
      exact Path.isSegment_lastSegment path
    · exact hc.isSegment hy
  · exact hc

theorem Keyed.forget {c : Cache} (hc : c.Keyed) (name : String) : (c.forget name).Keyed := by
  rw [Cache.forget]
  split
  · next e _ =>
    have hold : ∀ {d k y}, (c.entries.erase e ⟨name⟩).get? d k = some y →
        c.entries.get? d k = some y := by
      intro d k y hy
      by_cases hd : d = e
      · subst hd
        rw [Partition.get?_erase_self] at hy
        split at hy
        · cases hy
        · exact hy
      · rwa [Partition.get?_erase_of_ne hd] at hy
    exact ⟨fun h => hc.identity_eq (hold h), fun h => hc.component_eq (hold h),
      fun h => hc.username_ne (hold h), fun h => hc.isSegment (hold h)⟩
  · exact hc

/-! ## What following the store leaves alone -/

/-- The second cache differs from the first at most in its entries and in what it watches. -/
structure Akin (c c' : Cache) : Prop where
  parent_eq : c'.parent = c.parent
  vault_eq : c'.vault = c.vault
  phase_eq : c'.phase = c.phase
  stamped_eq : c'.stamped = c.stamped

theorem Akin.refl (c : Cache) : c.Akin c := ⟨rfl, rfl, rfl, rfl⟩

theorem Akin.symm {c₁ c₂ : Cache} (h : c₁.Akin c₂) : c₂.Akin c₁ :=
  ⟨h.1.symm, h.2.symm, h.3.symm, h.4.symm⟩

theorem Akin.trans {c₁ c₂ c₃ : Cache} (h : c₁.Akin c₂) (h' : c₂.Akin c₃) : c₁.Akin c₃ :=
  ⟨h'.1.trans h.1, h'.2.trans h.2, h'.3.trans h.3, h'.4.trans h.4⟩

theorem Akin.both {c₁ c₂ d₁ d₂ : Cache} (h : c₁.Akin c₂) (h₁ : c₁.Akin d₁) (h₂ : c₂.Akin d₂) :
    d₁.Akin d₂ :=
  (h₁.symm.trans h).trans h₂

/-- What a cache watches does not count. -/
theorem akin_watched (c : Cache) (watched : Std.ExtTreeSet String) : c.Akin { c with watched } :=
  ⟨rfl, rfl, rfl, rfl⟩

theorem akin_accept (c : Cache) (path : String) (r : Record) : c.Akin (c.accept path r) := by
  rw [accept_eq]
  split <;> exact ⟨rfl, rfl, rfl, rfl⟩

theorem akin_forget (c : Cache) (name : String) : c.Akin (c.forget name) := by
  rw [forget]
  split <;> exact ⟨rfl, rfl, rfl, rfl⟩

theorem akin_load (c : Cache) (path : String) (l : Link) : c.Akin (c.load path l).1 := by
  rw [load]
  split
  · exact akin_accept c path _
  · exact .refl c

theorem akin_trackChild (self : Watcher) (name : String) (c : Cache) (l : Link) :
    c.Akin (trackChild self name c l).1 := by
  rw [trackChild]
  split
  · exact .refl c
  · exact (akin_watched c _).trans (akin_load _ _ _)

theorem akin_track (self : Watcher) : ∀ (names : List String) (c : Cache) (l : Link),
    c.Akin (track self names c l).1
  | [], c, _ => .refl c
  | name :: names, c, l => (akin_trackChild self name c l).trans (akin_track self names _ _)

/-- **Following the store never changes where a cache stands or how far it has come.** -/
theorem akin_receive (self : Watcher) (e : Event) (c : Cache) (l : Link) :
    c.Akin (c.receive self e l).1 := by
  cases e with
  | children path names =>
    rw [receive]
    split
    · exact akin_track self names c l
    · exact .refl c
  | changed path r =>
    rw [receive]
    split
    · exact akin_accept c path r
    · exact .refl c
  | deleted path =>
    simp only [receive]
    exact (akin_watched c _).trans (akin_forget _ _)

end Cache

end Gatekeeper
