import Gatekeeper.Credential.Basic
import Gatekeeper.Json.Reader
import Gatekeeper.Json.Value

/-!
# Credential/UserForm — credentials as people write them down

A `UserForm` holds the texts of a credential before anything has been made of them.  Its JSON form
is an object with the members `username`, `password`, `component`, `role` and, if they are given,
`tables` and `permissions`; other members are skipped (`UserForm.ofJson`, `UserForm.toJson`).

`UserForm.credential` makes the credential, or says why there is none.
-/

namespace Gatekeeper

open Json (Problem Reader Schema Value)

/-- The texts of a credential. -/
structure UserForm where
  /-- The user's name. -/
  username : String
  /-- The user's secret. -/
  password : String
  /-- The word for the component. -/
  component : String
  /-- The word for the role. -/
  role : String
  /-- The tables granted, if any are named. -/
  tables : Option (List String)
  /-- The actions granted, if any are named. -/
  permissions : Option (List String)
  deriving DecidableEq, Repr

namespace UserForm

/-! ## JSON -/

/-- A form while it is read. -/
structure Draft where
  username : Option String := none
  password : Option String := none
  component : Option String := none
  role : Option String := none
  tables : Option (Option (List String)) := none
  permissions : Option (Option (List String)) := none

/-- The members of the JSON form. -/
def schema : Schema Draft where
  name := "CredentialConfig"
  strict := false
  fields := [
    ⟨"username", true, (·.username.isSome), fun t d => do
      return { d with username := some (← Reader.text t) }⟩,
    ⟨"password", true, (·.password.isSome), fun t d => do
      return { d with password := some (← Reader.text t) }⟩,
    ⟨"component", true, (·.component.isSome), fun t d => do
      return { d with component := some (← Reader.text t) }⟩,
    ⟨"role", true, (·.role.isSome), fun t d => do
      return { d with role := some (← Reader.text t) }⟩,
    ⟨"tables", false, (·.tables.isSome), fun t d => do
      return { d with tables := some (← Reader.optional (Reader.list Reader.text) t) }⟩,
    ⟨"permissions", false, (·.permissions.isSome), fun t d => do
      return { d with permissions := some (← Reader.optional (Reader.list Reader.text) t) }⟩]

/-- The form that a draft has become. -/
def Draft.form (d : Draft) : UserForm where
  username := d.username.getD ""
  password := d.password.getD ""
  component := d.component.getD ""
  role := d.role.getD ""
  tables := d.tables.join
  permissions := d.permissions.join

/-- Reads a form. -/
def reader : Reader UserForm := fun t => Draft.form <$> schema.read {} t

/-- The form that a JSON text holds. -/
def ofJson (text : String) : Except Problem UserForm := Json.decode reader text

/-- What is said of a text that holds no form. -/
def unreadable (p : Problem) : String :=
  Credential.refusal s!"invalid user config: {p.message}"

/-- A member whose value may be left out. -/
def optionalMember (name : String) (texts : Option (List String)) : List (String × Value) :=
  match texts with
  | some ts => [(name, .texts ts)]
  | none => []

/-- The form as a JSON document; lists that are not given are left out. -/
def value (f : UserForm) : Value :=
  .object ([("username", .text f.username), ("password", .text f.password),
      ("component", .text f.component), ("role", .text f.role)]
    ++ optionalMember "tables" f.tables ++ optionalMember "permissions" f.permissions)

/-- The form as a JSON text. -/
def toJson (f : UserForm) : String := f.value.render

/-! ## The credential -/

/-- Why a form makes no credential. -/
inductive Rejection
  /-- There is no such component or role. -/
  | unknownWord (e : UnknownWord)
  /-- The name or the secret will not do. -/
  | invalid (e : Credential.Invalid)
  deriving DecidableEq, Repr

/-- What is said of a form that makes no credential. -/
def Rejection.message : Rejection → String
  | .unknownWord e => Credential.refusal e.message
  | .invalid e => e.message

/-- The credential that a form describes; no list stands for an empty one. -/
def credential (f : UserForm) : Except Rejection Credential := do
  let component ← (Component.ofText f.component).mapError .unknownWord
  let role ← (Role.ofText f.role).mapError .unknownWord
  let c ← (Credential.new? f.username f.password component role).mapError .invalid
  return (c.withTables (f.tables.getD [])).withPermissions (f.permissions.getD [])

/-! ## Describing a form -/

/-- A list of texts that may be absent. -/
def optionalList : Option (List String) → String
  | none => "None"
  | some ts => "Some([" ++ Text.quotedList ts ++ "])"

/-- A description of a form that keeps its secret. -/
def redacted (f : UserForm) : String :=
  "CredentialConfig \x7b username: " ++ Text.quoted f.username
    ++ ", password: \"<redacted>\", component: " ++ Text.quoted f.component
    ++ ", role: " ++ Text.quoted f.role ++ ", tables: " ++ optionalList f.tables
    ++ ", permissions: " ++ optionalList f.permissions ++ " \x7d"

end UserForm

end Gatekeeper
