import Gatekeeper.Access.TokenIndex

/-!
# Access/Decision — what a credential allows

A `Request` says what is needed: a table, an action on a table, to be an administrator, or only to
be known.  `Credential.denial?` is the reason why a credential does not meet it, if there is one:
the table is looked at before the action.  A credential without tables reaches every table, and one
without permissions may do everything.
-/

namespace Gatekeeper

/-- What a request needs in order to be served. -/
inductive Request
  /-- To read a table. -/
  | table (table : String)
  /-- To do something to a table. -/
  | action (table action : String)
  /-- To be an administrator. -/
  | admin
  /-- To be known. -/
  | authenticated
  deriving DecidableEq, Repr

/-- The request to do something to a table, with the action in lower case. -/
def Request.tableAction (table action : String) : Request := .action table (Text.lower action)

/-- The request to do one of the four operations to a table. -/
def Request.operation (table : String) (o : Operation) : Request := .tableAction table o.word

/-- Why a request is denied. -/
inductive Denial
  /-- No header carries a known token. -/
  | unresolved
  /-- The table is not granted. -/
  | missingTable
  /-- The action is not granted. -/
  | missingPermission
  /-- An administrator is needed. -/
  | roleMismatch
  deriving DecidableEq, Repr

namespace Credential

/-- Whether the table is granted. -/
def reaches (c : Credential) (table : String) : Bool :=
  c.tables.isEmpty || c.tables.contains table

/-- Whether the action is granted, whatever its case. -/
def permits (c : Credential) (action : String) : Bool :=
  c.permissions.isEmpty || c.permissions.contains (Text.lower action)

/-- Whether the credential is of just this role at just this component. -/
def hasRole (c : Credential) (role : Role) (component : Component) : Bool :=
  c.role == role && c.component == component

/-- Why the credential does not meet the request at this component, if it does not. -/
def denial? (c : Credential) (component : Component) : Request → Option Denial
  | .authenticated => none
  | .admin => if c.hasRole .admin component then none else some .roleMismatch
  | .table t => if c.reaches t then none else some .missingTable
  | .action t a =>
    if c.reaches t then (if c.permits a then none else some .missingPermission)
    else some .missingTable

end Credential

end Gatekeeper
