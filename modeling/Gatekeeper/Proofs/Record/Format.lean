import Gatekeeper.Proofs.Credential.Identity
import Gatekeeper.Proofs.Outcome
import Gatekeeper.Record.Format

/-!
# Proofs/Record/Format — what a record that decodes is made of

Decoding takes a record apart field by field, and `decode_eq_ok_iff` puts all of it into one
statement: the four texts are there, two of them are words, the password can be revealed, and the
credential is the one built of them.  A record stands for a credential at a node when it decodes to
one whose identity is the node's name (`Vault.credentialAt`).
-/

namespace Gatekeeper

theorem Credential.new?_eq_ok_iff {u s : String} {component : Component} {role : Role}
    {x : Credential} : Credential.new? u s component role = .ok x ↔
      Text.trimmed u ≠ "" ∧ Text.trimmed s ≠ "" ∧
        x = ⟨Text.trimmed u, Text.trimmed s, component, role, ∅, ∅⟩ := by
  rw [Credential.new?]
  split
  · next hu => simp [hu]
  · next hu =>
    split
    · next hs => simp [hs]
    · next hs => simp [hu, hs, eq_comm]

namespace Vault

theorem required_eq_ok_iff {r : Record} {field value : String} :
    required r field = .ok value ↔ r.simple[field]? = some value := by
  rw [required]
  split
  · next w hw => simp [hw]
  · next hw => simp [hw]

/-- **What a record that decodes is made of.** -/
theorem decode_eq_ok_iff {v : Vault} {r : Record} {x : Credential} :
    v.decode r = .ok x ↔ ∃ username hidden component role secret,
      r.simple["username"]? = some username ∧ r.simple["password"]? = some hidden
        ∧ (∃ text, r.simple["component"]? = some text ∧ Component.ofText text = .ok component)
        ∧ (∃ text, r.simple["role"]? = some text ∧ Role.ofText text = .ok role)
        ∧ v.reveal hidden = .ok secret
        ∧ ∃ y, Credential.new? username secret component role = .ok y
          ∧ x = (y.withTables (r.lists["tables"]?.getD [])).withPermissions
            (r.lists["permissions"]?.getD []) := by
  simp only [decode, bind_eq_ok_iff, mapError_eq_ok_iff, required_eq_ok_iff, pure, Except.pure,
    Except.ok.injEq]
  constructor
  · rintro ⟨u, hu, p, hp, ct, hct, c, hc, rt, hrt, o, ho, s, hs, y, hy, rfl⟩
    exact ⟨u, p, c, o, s, hu, hp, ⟨ct, hct, hc⟩, ⟨rt, hrt, ho⟩, hs, y, hy, rfl⟩
  · rintro ⟨u, p, c, o, s, hu, hp, ⟨ct, hct, hc⟩, ⟨rt, hrt, ho⟩, hs, y, hy, rfl⟩
    exact ⟨u, hu, p, hp, ct, hct, c, hc, rt, hrt, o, ho, s, hs, y, hy, rfl⟩

/-- A decoded credential has a user. -/
theorem username_ne_of_decode {v : Vault} {r : Record} {x : Credential} (h : v.decode r = .ok x) :
    x.username ≠ "" := by
  obtain ⟨u, p, c, o, s, -, -, -, -, -, y, hy, rfl⟩ := decode_eq_ok_iff.mp h
  obtain ⟨hu, -, rfl⟩ := Credential.new?_eq_ok_iff.mp hy
  exact hu

/-! ## Records at nodes -/

/-- The credential that a record stands for at a node of this name, if it does. -/
def credentialAt (v : Vault) (name : String) (r : Record) : Option Credential :=
  match v.decode r with
  | .ok x => if x.identity.text = name then some x else none
  | .error _ => none

theorem credentialAt_eq_some_iff {v : Vault} {name : String} {r : Record} {x : Credential} :
    v.credentialAt name r = some x ↔ v.decode r = .ok x ∧ x.identity.text = name := by
  rw [credentialAt]
  cases v.decode r with
  | error e => simp
  | ok y =>
    simp only [Except.ok.injEq, Option.ite_none_right_eq_some, Option.some.injEq]
    exact ⟨fun ⟨h, e⟩ => ⟨e, e ▸ h⟩, fun ⟨e, h⟩ => ⟨e ▸ h, e⟩⟩

/-- What a record stands for at a node has the node's name for its identity. -/
theorem identity_of_credentialAt {v : Vault} {name : String} {r : Record} {x : Credential}
    (h : v.credentialAt name r = some x) : x.identity = ⟨name⟩ :=
  congrArg Identity.mk (credentialAt_eq_some_iff.mp h).2

theorem username_ne_of_credentialAt {v : Vault} {name : String} {r : Record} {x : Credential}
    (h : v.credentialAt name r = some x) : x.username ≠ "" :=
  username_ne_of_decode (credentialAt_eq_some_iff.mp h).1

theorem component?_of_credentialAt {v : Vault} {name : String} {r : Record} {x : Credential}
    (h : v.credentialAt name r = some x) : (Identity.mk name).component? = some x.component := by
  rw [← identity_of_credentialAt h]
  exact Identity.component?_of (username_ne_of_credentialAt h) _

end Vault

end Gatekeeper
