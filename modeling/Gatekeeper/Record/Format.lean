import Gatekeeper.Cipher.Basic
import Gatekeeper.Credential.Basic
import Gatekeeper.Record.Basic

/-!
# Record/Format — credentials as records

A credential is kept in a record whose id is the credential's identity.  The fields `username`,
`password`, `component` and `role` are texts, the password as the vault hides it; the fields
`tables` and `permissions` are lists.

`Vault.encode` writes the record of a credential and fails only if the secret cannot be hidden.
`Vault.decode` reads a credential from a record, which may be anything: it needs the four texts, and
takes a list that is missing for an empty one.  The id of the record is not looked at.
-/

namespace Gatekeeper

/-- What is wrong with a record that should hold a credential. -/
inductive Defect
  /-- A text is missing. -/
  | missing (field : String)
  /-- There is no such component or role. -/
  | unknownWord (e : UnknownWord)
  /-- The secret cannot be revealed. -/
  | unrevealed (e : CipherError)
  /-- The name or the secret will not do. -/
  | invalid (e : Credential.Invalid)
  deriving DecidableEq, Repr

/-- What is said of a defect. -/
def Defect.message : Defect → String
  | .missing field => s!"missing field '{field}'"
  | .unknownWord e => e.message
  | .unrevealed e => e.message
  | .invalid e => e.reason

/-- A record that holds no credential. -/
structure Undecodable where
  /-- The id of the record. -/
  id : String
  /-- What is wrong with it. -/
  defect : Defect
  deriving DecidableEq, Repr

/-- Whether it is the cipher that failed, and not the record. -/
def Undecodable.isUnrevealed (e : Undecodable) : Bool :=
  match e.defect with
  | .unrevealed _ => true
  | _ => false

/-- What is said of a record that holds no credential. -/
def Undecodable.message (e : Undecodable) : String :=
  (if e.isUnrevealed then "secret codec failure" else "malformed credential record")
    ++ s!": record '{e.id}': {e.defect.message}"

/-- A credential whose secret cannot be hidden. -/
structure Unencodable where
  /-- The identity of the credential. -/
  identity : Identity
  /-- How the cipher fails. -/
  cause : CipherError
  deriving DecidableEq, Repr

/-- What is said of a credential whose secret cannot be hidden. -/
def Unencodable.message (e : Unencodable) : String :=
  s!"secret codec failure: credential '{e.identity.text}': {e.cause.message}"

namespace Vault

/-- The text in a field of a record. -/
def required (r : Record) (field : String) : Except Undecodable String :=
  match r.simple[field]? with
  | some value => .ok value
  | none => .error ⟨r.id, .missing field⟩

/-- The credential that a record holds. -/
def decode (v : Vault) (r : Record) : Except Undecodable Credential := do
  let username ← required r "username"
  let hidden ← required r "password"
  let componentText ← required r "component"
  let component ← (Component.ofText componentText).mapError fun e => ⟨r.id, .unknownWord e⟩
  let roleText ← required r "role"
  let role ← (Role.ofText roleText).mapError fun e => ⟨r.id, .unknownWord e⟩
  let secret ← (v.reveal hidden).mapError fun e => ⟨r.id, .unrevealed e⟩
  let c ← (Credential.new? username secret component role).mapError fun e => ⟨r.id, .invalid e⟩
  return (c.withTables (r.lists["tables"]?.getD [])).withPermissions
    (r.lists["permissions"]?.getD [])

/-- The record that holds a credential. -/
def encode (v : Vault) (c : Credential) : Except Unencodable Record := do
  let hidden ← (v.hide c.secret).mapError fun e => ⟨c.identity, e⟩
  return Record.empty c.identity.text
    |>.withSimple "username" c.username
    |>.withSimple "password" hidden
    |>.withSimple "component" c.component.word
    |>.withSimple "role" c.role.word
    |>.withList "tables" c.tables.toList
    |>.withList "permissions" c.permissions.toList

end Vault

end Gatekeeper
