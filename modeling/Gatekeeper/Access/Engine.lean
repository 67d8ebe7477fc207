import Gatekeeper.Access.Decision
import Gatekeeper.Access.Header

/-!
# Access/Engine — who is asking, and whether it is allowed

An `Engine` answers requests for one component out of a source of credentials.  It denies whatever
it cannot resolve: `Engine.authorize` holds only if some `Authorization` value carries the token of
a credential of the component, and that credential meets the request.  `Engine.explain` says the
same with reasons, without secrets or tokens.
-/

namespace Gatekeeper

/-- Something that knows credentials. -/
class CredentialSource (σ : Type) where
  /-- The credentials of a component, as they are now. -/
  credentials : σ → Component → List Credential

/-- A list of credentials is a source that never changes. -/
instance : CredentialSource (List Credential) where
  credentials cs component := cs.filter fun c => c.component == component

/-- Answers requests for one component. -/
structure Engine (σ : Type) where
  /-- Where the credentials come from. -/
  source : σ
  /-- The component that requests are for. -/
  component : Component

/-- The answer to a request, with reasons. -/
structure Explanation where
  /-- Whether the request is granted. -/
  granted : Bool
  /-- The name of whoever is asking, if known. -/
  principal : Option String
  /-- What was asked. -/
  request : Request
  /-- The reason, for people. -/
  reason : String
  /-- The reason, if the request is denied. -/
  denial : Option Denial
  deriving DecidableEq, Repr

namespace Engine

variable {σ : Type} [CredentialSource σ]

/-- The credentials of the engine's component, by token. -/
def index (e : Engine σ) : TokenIndex :=
  .ofList (CredentialSource.credentials e.source e.component)

/-- The credential of whoever is asking. -/
def resolve? (e : Engine σ) (headers : List Header) : Option Credential :=
  e.index.resolve? (authorizationValues headers)

/-- Why a request is denied, if it is. -/
def denial? (e : Engine σ) (headers : List Header) (request : Request) : Option Denial :=
  match e.resolve? headers with
  | none => some .unresolved
  | some c => c.denial? e.component request

/-- Whether a request is granted. -/
def authorize (e : Engine σ) (headers : List Header) (request : Request) : Bool :=
  match e.resolve? headers with
  | none => false
  | some c => (c.denial? e.component request).isNone

/-- Whether a table may be read. -/
def mayRead (e : Engine σ) (headers : List Header) (table : String) : Bool :=
  e.authorize headers (.table table)

/-- Whether something may be done to a table. -/
def mayAct (e : Engine σ) (headers : List Header) (table action : String) : Bool :=
  e.authorize headers (.tableAction table action)

/-- Whether whoever is asking is an administrator. -/
def isAdmin (e : Engine σ) (headers : List Header) : Bool := e.authorize headers .admin

/-- Whether whoever is asking is known. -/
def isKnown (e : Engine σ) (headers : List Header) : Bool := e.authorize headers .authenticated

/-! ## Explanations -/

/-- Why a resolved request is denied, for people. -/
def refusalText (c : Credential) (component : Component) (request : Request) (d : Denial) :
    String :=
  match d, request with
  | .missingTable, .table t | .missingTable, .action t _ =>
    s!"Principal '{c.username}' has no access to table '{t}'"
  | .missingPermission, .action _ a => s!"Principal '{c.username}' lacks permission '{a}'"
  | .roleMismatch, _ =>
    s!"Principal '{c.username}' is {c.role.word} on {c.component.word}, {Role.admin.word} on "
      ++ s!"{component.word} required"
  | _, _ => s!"Principal '{c.username}' is denied"

/-- The answer to a request, with reasons. -/
def explain (e : Engine σ) (headers : List Header) (request : Request) : Explanation :=
  match e.resolve? headers with
  | none =>
    { granted := false
      principal := none
      request
      reason := s!"No {e.component.word} credential matches the Authorization header"
      denial := some .unresolved }
  | some c =>
    match c.denial? e.component request with
    | none =>
      { granted := true
        principal := some c.username
        request
        reason := s!"Principal '{c.username}' is granted the request"
        denial := none }
    | some d =>
      { granted := false
        principal := some c.username
        request
        reason := refusalText c e.component request d
        denial := some d }

end Engine

end Gatekeeper
