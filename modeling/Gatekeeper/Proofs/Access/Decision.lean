import Gatekeeper.Access.Engine
import Gatekeeper.Proofs.Access.TokenIndex

/-!
# Proofs/Access/Decision — what a credential allows, and what a grant rests on

`Credential.Allows` says in words of its own what a request needs of a credential, and
`denial?_eq_none_iff` that just this is not denied.  A grant names a credential of the source, whose
token was carried and which allows the request (`Engine.exists_of_authorize`).
-/

namespace Gatekeeper

open Std (ExtTreeSet)

/-! ## What is allowed -/

/-- The credential allows the request at this component. -/
def Credential.Allows (c : Credential) (component : Component) : Request → Prop
  | .authenticated => True
  | .admin => c.role = .admin ∧ c.component = component
  | .table t => c.tables = ∅ ∨ t ∈ c.tables
  | .action t a => (c.tables = ∅ ∨ t ∈ c.tables) ∧
      (c.permissions = ∅ ∨ Text.lower a ∈ c.permissions)

theorem Credential.reaches_iff {c : Credential} {t : String} :
    c.reaches t = true ↔ c.tables = ∅ ∨ t ∈ c.tables := by
  simp [reaches, ExtTreeSet.isEmpty_iff]

theorem Credential.permits_iff {c : Credential} {a : String} :
    c.permits a = true ↔ c.permissions = ∅ ∨ Text.lower a ∈ c.permissions := by
  simp [permits, ExtTreeSet.isEmpty_iff]

/-- **A credential is not denied just what it allows.** -/
theorem Credential.denial?_eq_none_iff {c : Credential} {component : Component}
    {request : Request} : c.denial? component request = none ↔ c.Allows component request := by
  cases request with
  | authenticated => simp [denial?, Allows]
  | admin => simp [denial?, Allows, hasRole]
  | table t =>
    rw [denial?, Allows, ← reaches_iff]
    by_cases h : c.reaches t <;> simp [h]
  | action t a =>
    rw [denial?, Allows, ← reaches_iff, ← permits_iff]
    by_cases h : c.reaches t <;> by_cases h' : c.permits a <;> simp [h, h']

/-- **A grant names its credential**: one of the source's, whose token is carried, and that allows
the request. -/
theorem Engine.exists_of_authorize {σ : Type} [CredentialSource σ] {e : Engine σ}
    {headers : List Header} {request : Request} (h : e.authorize headers request = true) :
    ∃ x ∈ CredentialSource.credentials e.source e.component,
      (∃ value ∈ authorizationValues headers, Token.ofHeader? value = some x.token) ∧
        x.Allows e.component request := by
  rw [authorize] at h
  split at h
  · cases h
  · next x hx =>
    obtain ⟨hmem, hvalue⟩ := TokenIndex.exists_of_resolve? hx
    exact ⟨x, hmem, hvalue, Credential.denial?_eq_none_iff.mp (Option.isNone_iff_eq_none.mp h)⟩

end Gatekeeper
