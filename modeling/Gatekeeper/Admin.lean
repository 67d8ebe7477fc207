import Gatekeeper.Credential.UserForm
import Gatekeeper.Hub.Basic

/-!
# Admin — adding, replacing and deleting credentials

An `Admin` writes credentials below a parent node, as records under their identities.  All it does
goes to the store; caches hear of it as of any other write.

* A name with a dot or a blank in it is refused, and so is a credential that is there already.
* A credential is only replaced by one of the same identity, and only if it is there.
* What is read is read from the store.

`AdminError.isDomain` tells refusals from failures of the store.
-/

namespace Gatekeeper

/-- Administers the credentials below a node. -/
structure Admin where
  /-- The path of the parent node. -/
  parent : String
  /-- The vault that hides the secrets. -/
  vault : Vault

/-- Why something could not be administered. -/
inductive AdminError
  /-- The name has a dot or a blank in it. -/
  | badName (username : String)
  /-- The form makes no credential. -/
  | rejected (e : UserForm.Rejection)
  /-- A credential can only replace one of its own identity. -/
  | cannotReplace (body addressed : Identity)
  /-- The secret cannot be hidden. -/
  | unencodable (e : Unencodable)
  /-- The record holds no credential. -/
  | undecodable (e : Undecodable)
  /-- There is such a credential already. -/
  | duplicate (identity : Identity)
  /-- There is no such credential. -/
  | notFound (identity : Identity)
  /-- The store failed. -/
  | store (e : StoreError)
  /-- A listener broke the delivery of a write off. -/
  | brokenOff (listener : String)
  deriving DecidableEq, Repr

namespace AdminError

/-- Whether it is a refusal, rather than a failure of the store or of a listener. -/
def isDomain : AdminError → Bool
  | store _ | brokenOff _ => false
  | _ => true

/-- What is said of something that could not be administered. -/
def message : AdminError → String
  | badName username =>
    Credential.refusal s!"username '{username}' must not contain '.' or whitespace"
  | rejected e => e.message
  | cannotReplace body addressed =>
    Credential.refusal s!"credential '{body.text}' cannot replace '{addressed.text}'"
  | unencodable e => e.message
  | undecodable e => e.message
  | duplicate identity => s!"credential '{identity.text}' already exists"
  | notFound identity => s!"credential '{identity.text}' not found"
  | store e => e.message
  | brokenOff listener => s!"listener {listener}"

/-- The failure of a write. -/
def ofWrite : WriteError → AdminError
  | .store e => store e
  | .brokenOff listener => brokenOff listener

end AdminError

namespace Admin

/-- The path of the node for an identity. -/
def path (a : Admin) (i : Identity) : String := Path.child a.parent i.text

/-- The identity of a user whose name may have blanks around it. -/
def addressed (username : String) (component : Component) : Identity :=
  .of (Text.trimmed username) component

/-- Whether a name may be administered: no dot and no blank is in it. -/
def mayName (username : String) : Bool :=
  username.toList.all fun c => c ≠ '.' && !Text.isBlank c

/-- Adds a credential that is not there yet. -/
def add (a : Admin) (c : Credential) (h : Hub) : Except AdminError Identity × Hub :=
  if mayName c.username then
    match a.vault.encode c with
    | .error e => (.error (.unencodable e), h)
    | .ok r =>
      match h.submit (.create (a.path c.identity) r) with
      | (.ok _, h) => (.ok c.identity, h)
      | (.error (.store (.nodeExists _)), h) => (.error (.duplicate c.identity), h)
      | (.error e, h) => (.error (.ofWrite e), h)
  else (.error (.badName c.username), h)

/-- Adds the credential that a form describes. -/
def addForm (a : Admin) (f : UserForm) (h : Hub) : Except AdminError Identity × Hub :=
  match f.credential with
  | .error e => (.error (.rejected e), h)
  | .ok c => a.add c h

/-- Puts a credential in the place of the one with the same identity. -/
def update (a : Admin) (username : String) (component : Component) (c : Credential) (h : Hub) :
    Except AdminError Unit × Hub :=
  let i := addressed username component
  if c.identity = i then
    match h.exists? (a.path i) with
    | (.error e, h) => (.error (.store e), h)
    | (.ok false, h) => (.error (.notFound i), h)
    | (.ok true, h) =>
      match a.vault.encode c with
      | .error e => (.error (.unencodable e), h)
      | .ok r =>
        match h.submit (.set (a.path i) r) with
        | (.ok _, h) => (.ok (), h)
        | (.error e, h) => (.error (.ofWrite e), h)
  else (.error (.cannotReplace c.identity i), h)

/-- Deletes a credential. -/
def delete (a : Admin) (username : String) (component : Component) (h : Hub) :
    Except AdminError Unit × Hub :=
  let i := addressed username component
  match h.submit (.remove (a.path i)) with
  | (.ok true, h) => (.ok (), h)
  | (.ok false, h) => (.error (.notFound i), h)
  | (.error e, h) => (.error (.ofWrite e), h)

/-- Whether there is a credential. -/
def exists? (a : Admin) (username : String) (component : Component) (h : Hub) :
    Except AdminError Bool × Hub :=
  let (r, h) := h.exists? (a.path (addressed username component))
  (r.mapError .store, h)

/-- The identities of all credentials, in ascending order. -/
def list (a : Admin) (h : Hub) : Except AdminError (List Identity) × Hub :=
  let (r, h) := h.list a.parent
  ((r.map fun names => (names.map Identity.mk).mergeSort fun i j => (compare i j).isLE).mapError
    .store, h)

/-- Reads a credential from the store. -/
def get (a : Admin) (username : String) (component : Component) (h : Hub) :
    Except AdminError Credential × Hub :=
  let i := addressed username component
  match h.get (a.path i) with
  | (.error e, h) => (.error (.store e), h)
  | (.ok none, h) => (.error (.notFound i), h)
  | (.ok (some r), h) => ((a.vault.decode r).mapError .undecodable, h)

end Admin

end Gatekeeper
