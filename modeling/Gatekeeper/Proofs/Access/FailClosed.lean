import Gatekeeper.Proofs.Access.Decision
import Gatekeeper.Proofs.Cache.Convergence

/-!
# Proofs/Access/FailClosed — a grant rests on a record that is still in the store

`Run.granted`: whenever an engine over a cache grants a request, some `Authorization` value carries
the token of a credential whose node is in the store right now, and that credential is what the
node's records say it is: the last of them since the node's creation that stands for a credential
of the node.  It does not matter how far the cache has come, which starts failed, which races there
were, which calls to the store failed on the way, or in what order the cache lists what it holds.

So a credential that was deleted grants nothing any more, nor does a secret that was replaced,
unless some other credential of the kind is there with that name and secret.
-/

namespace Gatekeeper

open Std (ExtTreeMap)
open Hub

/-! ## What a cache can hold at any time -/

/-- The reading by which an entry is nothing, or the last thing that its node stood for. -/
def lastOrNothing : Reading := fun _ vault name ch x => x = none ∨ x = lastAccepted vault name ch

theorem lastAccepted_cons (vault : Vault) (name : String) (r : Record)
    (caches : ExtTreeMap Nat Cache) (ch : List (Record × ExtTreeMap Nat Cache)) :
    lastAccepted vault name ((r, caches) :: ch)
      = (vault.credentialAt name r).or (lastAccepted vault name ch) := by
  rw [lastAccepted, lastAccepted, List.findSome?_cons]
  cases vault.credentialAt name r <;> rfl

theorem lawful_lastOrNothing : lastOrNothing.Lawful where
  nil _ _ _ := .inl rfl
  push id vault name r caches ch x _ hx := by
    rw [lastOrNothing, lastAccepted_cons]
    obtain rfl | rfl := hx
    · cases vault.credentialAt name r with
      | none => exact .inl rfl
      | some x => exact .inr rfl
    · exact .inr rfl
  again id vault name r caches ch x hx := by
    rw [lastOrNothing, lastAccepted_cons] at hx ⊢
    cases hr : vault.credentialAt name r with
    | none => rwa [hr] at hx
    | some y => exact .inr rfl
  load id vault name r caches ch _ := by
    rw [lastOrNothing, lastAccepted_cons]
    cases vault.credentialAt name r with
    | none => exact .inl rfl
    | some x => exact .inr rfl

/-- **What a cache holds is in the store**, at every point of a run of genuine writes, whatever
fails: a child that is there, and the last thing that its records stood for. -/
theorem Run.held {faults : Call → Prop} {log : List Deed} {h : Hub}
    (hr : Run (.genuine faults) log h) {id : Nat} {c : Cache} (hid : h.caches[id]? = some c)
    {name : String} {x : Credential} (hx : c.get? ⟨name⟩ = some x) :
    name ∈ h.store.children c.parent ∧
      lastAccepted c.vault name (chronicle (Path.child c.parent name) log) = some x := by
  have hs := hr.steady lawful_lastOrNothing (fun _ _ _ _ _ => .inl rfl) hid
  have hw : name ∈ c.watched := by
    by_contra hout
    rw [hs.1.absent name hout] at hx
    cases hx
  have hlast : lastAccepted c.vault name (chronicle (Path.child c.parent name) log) = some x := by
    obtain hno | hlast := hs.1.expected name hw
    · rw [hno] at hx
      cases hx
    · exact hlast.symm.trans hx
  refine ⟨Store.mem_children.mpr ⟨hs.1.segment name hw, ?_⟩, hlast⟩
  by_contra hout
  rw [hr.course.chronicle_eq_nil_iff.mpr hout] at hlast
  cases hlast

/-- **A grant rests on the store.**  Whenever the engine of a component grants a request over a
cache, an `Authorization` value carries the token of a name and a secret, the node of that name and
component is there, and what its records last stood for is a credential with just that name and
secret that allows the request.  So it is in whatever order the cache lists its credentials. -/
theorem Run.granted {faults : Call → Prop} {log : List Deed} {h : Hub}
    (hr : Run (.genuine faults) log h) {id : Nat} {c : Cache} (hid : h.caches[id]? = some c)
    {component : Component} {headers : List Header} {request : Request}
    (hgrant : (Engine.mk c component).authorize headers request = true) :
    ∃ value ∈ authorizationValues headers, ∃ name secret,
      Token.ofHeader? value = some (Token.build name secret) ∧
      (Identity.of name component).text ∈ h.store.children c.parent ∧
      ∃ x, lastAccepted c.vault (Identity.of name component).text
          (chronicle (Path.child c.parent (Identity.of name component).text) log) = some x ∧
        x.username = name ∧ x.secret = secret ∧ x.component = component ∧
          x.Allows component request := by
  obtain ⟨x, hx, ⟨value, hvalue, hof⟩, hallows⟩ := Engine.exists_of_authorize hgrant
  obtain ⟨hget, rfl⟩ := (hr.keyed hid).mem_list.mp hx
  obtain ⟨hchild, hlast⟩ := hr.held hid hget
  exact ⟨value, hvalue, x.username, x.secret, hof, hchild, x, hlast, rfl, rfl, rfl, hallows⟩

/-- The header that carries the token of `ann:pw`. -/
def sampleHeaders : List Header := [⟨Header.authorization, "Basic YW5uOnB3".toUTF8.data.toList⟩]

/-- In the small run, the credential that was added is granted a table, and is in the store. -/
theorem granted_sample : ∃ c, sampleRun.2.caches[0]? = some c ∧
    (Engine.mk c .broker).authorize sampleHeaders (.table "orders") = true ∧
    ∃ value ∈ authorizationValues sampleHeaders, ∃ name secret,
      Token.ofHeader? value = some (Token.build name secret) ∧
        (Identity.of name .broker).text ∈ sampleRun.2.store.children c.parent := by
  have hstate : (sampleRun.2.caches[0]?.any fun c =>
      (Engine.mk c .broker).authorize sampleHeaders (.table "orders")) = true := by
    decide +kernel
  obtain ⟨c, hid, hgrant⟩ := (Option.any_eq_true _ _).mp hstate
  obtain ⟨value, hvalue, name, secret, hof, hchild, -⟩ := run_sample.granted hid hgrant
  exact ⟨c, hid, hgrant, value, hvalue, name, secret, hof, hchild⟩

end Gatekeeper
