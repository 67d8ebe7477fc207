import Gatekeeper.Proofs.Access.Decision
import Gatekeeper.Proofs.Admin.Effective
import Gatekeeper.Proofs.Cache.Apart
import Gatekeeper.Proofs.Cache.Integrity

/-!
# Proofs/Access/Isolation — the components have nothing to do with each other

An engine resolves headers to nobody but credentials of its own component, be it over a list or over
a cache (`Engine.Confined`), so it takes nobody else for an administrator.

What a cache holds of a component comes from the children whose names have that component, and from
nothing else.  `Engine.isolated`: where writes go on from a cache that is ready, it is enough to know
those of them that are to such children, to know what is done to the entries of the component, what
the cache then holds of it and what an engine for it answers (`Cache.AlikeAt`).  The others may be
any writes at all, in between, before and after, whatever their records claim to be.

Two credentials of a component may have a token in common, and then it matters which of them is
listed first.  A cache lists them in an order that the history of its entries decides, in a way that
is not known (`Arrangement`).  So it is the histories that have to be the same, not the entries.
-/

namespace Gatekeeper

open Std (ExtTreeMap)
open Hub

/-! ## Engines over one component -/

/-- **An engine that knows its own component alone.** -/
structure Engine.Confined {σ : Type} [CredentialSource σ] (e : Engine σ) : Prop where
  /-- Whoever is asking has a credential of the component. -/
  component_eq : ∀ headers x, e.resolve? headers = some x → x.component = e.component
  /-- To be an administrator is to have a credential with that role. -/
  isAdmin_iff : ∀ headers,
    e.isAdmin headers = true ↔ ∃ x, e.resolve? headers = some x ∧ x.role = .admin

/-- An engine is as confined as what its source has for it. -/
theorem Engine.Confined.of_source {σ : Type} [CredentialSource σ] {e : Engine σ}
    (h : ∀ x ∈ CredentialSource.credentials e.source e.component, x.component = e.component) :
    e.Confined := by
  have hcomp : ∀ headers x, e.resolve? headers = some x → x.component = e.component :=
    fun headers x hx => h x (TokenIndex.exists_of_resolve? hx).1
  refine ⟨hcomp, fun headers => ?_⟩
  rw [isAdmin, authorize]
  cases hx : e.resolve? headers with
  | none => simp
  | some x =>
    rw [Option.isNone_iff_eq_none, Credential.denial?_eq_none_iff]
    simp [Credential.Allows, hcomp headers x hx]

theorem Engine.confined_list (cs : List Credential) (component : Component) :
    (Engine.mk cs component).Confined :=
  .of_source fun _ hx => beq_iff_eq.mp (List.mem_filter.mp hx).2

theorem Cache.Keyed.confined {c : Cache} (hc : c.Keyed) (component : Component) :
    (Engine.mk c component).Confined :=
  .of_source fun _ hx => (hc.mem_list.mp hx).2

/-! ## What a cache holds of a component -/

/-- **Two caches that hold the same of a component**, and in the same order, so that an engine for it
cannot tell them apart. -/
structure Cache.AlikeAt (component : Component) (c₁ c₂ : Cache) : Prop where
  /-- The same has been done to their entries ever since, in the same order, -/
  edits : (c₁.entries.shelf component).edits = (c₂.entries.shelf component).edits
  /-- and so they have the same entries. -/
  entries : c₁.entries.part component = c₂.entries.part component
  /-- They list the same credentials, one after another. -/
  list : c₁.list component = c₂.list component
  /-- The same requests are granted. -/
  authorize : ∀ headers request, (Engine.mk c₁ component).authorize headers request
    = (Engine.mk c₂ component).authorize headers request
  /-- They are answered with the same reasons. -/
  explain : ∀ headers request, (Engine.mk c₁ component).explain headers request
    = (Engine.mk c₂ component).explain headers request

/-- **Where the same has happened at a component**, an engine for it finds no difference. -/
theorem Cache.SameAt.alikeAt {component : Component} {c₁ c₂ : Cache} (h : c₁.SameAt component c₂) :
    c₁.AlikeAt component c₂ := by
  have hlist : c₁.list component = c₂.list component :=
    congrArg (fun s : Shelf Identity Credential => s.list.map Prod.snd) h.shelf_eq
  have hresolve : ∀ headers, (Engine.mk c₁ component).resolve? headers
      = (Engine.mk c₂ component).resolve? headers := fun headers =>
    congrArg (fun cs => (TokenIndex.ofList cs).resolve? (authorizationValues headers)) hlist
  refine ⟨h.edits_eq, congrArg Shelf.entries h.shelf_eq, hlist, fun headers request => ?_,
    fun headers request => ?_⟩
  · rw [Engine.authorize, Engine.authorize, hresolve]
  · rw [Engine.explain, Engine.explain, hresolve]

/-- **The components are isolated.**  An engine over a list, or over a cache at any point of any run,
knows its own component alone.  And wherever a run without faults has come to a cache that is ready,
two ways to go on with the same writes, in the same order, to the children whose names have the
component do the same to its entries there, so that they are the same and listed alike, in whatever
order the cache lists them; all other writes may differ at will. -/
theorem Engine.isolated (component : Component) :
    (∀ cs : List Credential, (Engine.mk cs component).Confined) ∧
    (∀ (z : Limits) (log : List Deed) (h : Hub), Run z log h → ∀ (id : Nat) (c : Cache),
      h.caches[id]? = some c → (Engine.mk c component).Confined) ∧
    ∀ (log : List Deed) (h : Hub), Run .faultless log h → ∀ (id : Nat) (c : Cache),
      h.caches[id]? = some c → c.phase = .ready → Path.IsBare c.parent →
      ∀ ws₁ ws₂ : List Write, (∀ w ∈ ws₁, w.IsGenuine) → (∀ w ∈ ws₂, w.IsGenuine) →
        ws₁.filter (Write.concerns c.parent component)
          = ws₂.filter (Write.concerns c.parent component) →
        ∃ c₁ c₂ : Cache, (inTurn Hub.submit ws₁ h).2.caches[id]? = some c₁ ∧
          (inTurn Hub.submit ws₂ h).2.caches[id]? = some c₂ ∧ c₁.AlikeAt component c₂ := by
  refine ⟨fun cs => confined_list cs component, fun z log h hr id c hid => ?_,
    fun log h hr id c hid hready hbare ws₁ ws₂ hws₁ hws₂ hsame => ?_⟩
  · exact (hr.course.lasts (Cache.lasting_keyed z id) c hid).confined component
  · have hat : Ready id c h := ⟨⟨log, hr⟩, hid, hready, hbare⟩
    have hrefl : SameChildren c.parent component h.store.nodes h.store.nodes := fun _ _ _ => .rfl
    -- each of the two is compared with the writes that they have in common
    obtain ⟨c₁, d₁, hid₁, hcommon₁, hsame₁⟩ :=
      hat.sameAt_filter hat (.refl component c) hrefl hws₁
    obtain ⟨c₂, d₂, hid₂, hcommon₂, hsame₂⟩ :=
      hat.sameAt_filter hat (.refl component c) hrefl hws₂
    rw [hsame] at hcommon₁
    obtain rfl : d₁ = d₂ := Option.some.inj (hcommon₁.symm.trans hcommon₂)
    exact ⟨c₁, c₂, hid₁, hid₂, (hsame₁.trans hsame₂.symm).alikeAt⟩

/-- A record that claims to be of a controller. -/
def claimedRecord (id secret : String) : Record :=
  Record.empty id
    |>.withSimple "username" "bob"
    |>.withSimple "password" secret
    |>.withSimple "component" "CONTROLLER"
    |>.withSimple "role" "ADMIN"

/-- A controller comes to be, and has another secret. -/
def plainWrites : List Write :=
  [.create "/users/bob_CONTROLLER" (claimedRecord "bob_CONTROLLER" "enc:wp"),
    .set "/users/bob_CONTROLLER" (claimedRecord "bob_CONTROLLER" "enc:terces")]

/-- In between, records that claim to be of the same controller are written under other names, below
it, and below another parent. -/
def noisyWrites : List Write :=
  [.set "/users/bob_BROKER" (claimedRecord "bob_CONTROLLER" "enc:x"),
    .create "/users/bob_CONTROLLER" (claimedRecord "bob_CONTROLLER" "enc:wp"),
    .remove "/users/bob_BROKER",
    .create "/users/bob_CONTROLLER/bob_CONTROLLER" (claimedRecord "bob_CONTROLLER" "enc:x"),
    .set "/users/bob_CONTROLLER" (claimedRecord "bob_CONTROLLER" "enc:terces"),
    .set "/users/bob" (claimedRecord "bob_CONTROLLER" "enc:x"),
    .set "/users2/bob_CONTROLLER" (claimedRecord "bob_CONTROLLER" "enc:x"),
    .remove "/users2/bob_CONTROLLER"]

/-- The controller is the same after both, and the one that there is. -/
theorem isolated_noisy : ∃ c₁ c₂ : Cache,
    (inTurn Hub.submit plainWrites startedRun.2).2.caches[0]? = some c₁ ∧
      (inTurn Hub.submit noisyWrites startedRun.2).2.caches[0]? = some c₂ ∧
      c₁.AlikeAt .controller c₂ ∧
      c₂.list .controller = [⟨"bob", "secret", .controller, .admin, ∅, ∅⟩] := by
  obtain ⟨c, hid, hready, hparent, -⟩ := started_cache
  have hparent' : c.parent = "/users" := hparent
  have hplain : ∀ w ∈ plainWrites, w.IsGenuine := by simp [plainWrites, Write.IsGenuine]
  have hnoisy : ∀ w ∈ noisyWrites, w.IsGenuine := by simp [noisyWrites, Write.IsGenuine]
  obtain ⟨c₁, c₂, hid₁, hid₂, halike⟩ := (Engine.isolated .controller).2.2 _ _ run_started 0 c hid
    hready (hparent' ▸ by decide) plainWrites noisyWrites hplain hnoisy
    (hparent' ▸ by decide +kernel)
  refine ⟨c₁, c₂, hid₁, hid₂, halike, ?_⟩
  have hstate : (inTurn Hub.submit noisyWrites startedRun.2).2.caches[0]?.map
      (fun c => c.list .controller) = some [⟨"bob", "secret", .controller, .admin, ∅, ∅⟩] := by
    decide +kernel
  rw [hid₂] at hstate
  exact Option.some.inj hstate

end Gatekeeper
