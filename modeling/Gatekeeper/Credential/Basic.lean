import Gatekeeper.Credential.Identity
import Gatekeeper.Text.Quoted
import Std.Data.ExtTreeSet

/-!
# Credential/Basic — one user's secret and grants at one component

A `Credential` is built from texts by `Credential.new?`, which trims the user's name and the secret
and refuses blank ones, and is given its grants by `withTables` and `withPermissions`.  Grants are
sets: tables are trimmed, permissions are trimmed and in lower case, and blank entries are dropped.
An empty set of grants restricts nothing.

`redacted` describes a credential to people without its secret.
-/

namespace Gatekeeper

open Std (ExtTreeSet)
open Text (trimmed lower quoted quotedList)

/-- One user's secret, role and grants at one component. -/
structure Credential where
  /-- The user's name. -/
  username : String
  /-- What the user proves to be the user with. -/
  secret : String
  /-- Where the credential holds. -/
  component : Component
  /-- What the user is there. -/
  role : Role
  /-- The tables granted; all of them if there are none. -/
  tables : ExtTreeSet String
  /-- The actions granted, in lower case; all of them if there are none. -/
  permissions : ExtTreeSet String
  deriving DecidableEq

namespace Credential

/-- Why a credential cannot be built. -/
inductive Invalid
  /-- Nothing is left of the user's name once trimmed. -/
  | blankUsername
  /-- Nothing is left of the user's secret once trimmed. -/
  | blankSecret (username : String)
  deriving DecidableEq, Repr

/-- Why a credential cannot be built, in words. -/
def Invalid.reason : Invalid → String
  | .blankUsername => "username must not be blank"
  | .blankSecret username => s!"must provide a secret for '{username}'"

/-- What is said of input that is refused for a reason. -/
def refusal (reason : String) : String := s!"validation failed: {reason}"

/-- What is said of a credential that cannot be built. -/
def Invalid.message (e : Invalid) : String := refusal e.reason

/-- The credential of a user with a secret, without any grants yet. -/
def new? (username secret : String) (component : Component) (role : Role) :
    Except Invalid Credential :=
  if trimmed username = "" then .error .blankUsername
  else if trimmed secret = "" then .error (.blankSecret (trimmed username))
  else .ok ⟨trimmed username, trimmed secret, component, role, ∅, ∅⟩

/-- The texts as a set, with what is blank left out. -/
def grants (texts : List String) : ExtTreeSet String :=
  .ofList (texts.filter (· ≠ ""))

/-- The set of tables that a list names. -/
def tablesOf (texts : List String) : ExtTreeSet String := grants (texts.map trimmed)

/-- The set of permissions that a list names. -/
def permissionsOf (texts : List String) : ExtTreeSet String :=
  grants (texts.map fun t => lower (trimmed t))

/-- The credential with these tables in place of those it had. -/
def withTables (c : Credential) (texts : List String) : Credential :=
  { c with tables := tablesOf texts }

/-- The credential with these permissions in place of those it had. -/
def withPermissions (c : Credential) (texts : List String) : Credential :=
  { c with permissions := permissionsOf texts }

/-- The identity of a credential. -/
def identity (c : Credential) : Identity := .of c.username c.component

/-- The members of a set of texts, quoted, in braces. -/
def bracedSet (s : ExtTreeSet String) : String :=
  "\x7b" ++ quotedList s.toList ++ "\x7d"

/-- A description of a credential that keeps its secret. -/
def redacted (c : Credential) : String :=
  "Credential \x7b username: " ++ quoted c.username ++ ", secret: \"<redacted>\", component: "
    ++ Vocabulary.label c.component ++ ", role: " ++ Vocabulary.label c.role
    ++ ", tables: " ++ bracedSet c.tables ++ ", permissions: " ++ bracedSet c.permissions ++ " \x7d"

/-! ## What the grants hold -/

theorem mem_grants {texts : List String} {t : String} :
    t ∈ grants texts ↔ t ∈ texts ∧ t ≠ "" := by
  simp [grants, ExtTreeSet.mem_ofList]

/-- A table is granted when it is the trimmed text of an entry, and not blank. -/
theorem mem_tablesOf {texts : List String} {t : String} :
    t ∈ tablesOf texts ↔ (∃ x ∈ texts, trimmed x = t) ∧ t ≠ "" := by
  simp [tablesOf, mem_grants]

/-- A permission is granted when it is the trimmed text of an entry in lower case, and not blank. -/
theorem mem_permissionsOf {texts : List String} {t : String} :
    t ∈ permissionsOf texts ↔ (∃ x ∈ texts, lower (trimmed x) = t) ∧ t ≠ "" := by
  simp [permissionsOf, mem_grants]

end Credential

end Gatekeeper
