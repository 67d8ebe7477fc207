import Gatekeeper.Access.Engine
import Gatekeeper.Cache.Partition
import Gatekeeper.Record.Format
import Gatekeeper.Store.Link

/-!
# Cache/Basic — the credentials below one node, kept current

A `Cache` holds the credentials that the records directly below its parent node decode to.  It is
told of the parent's children, and of the record of every child that it watches.

* A child that it hears of for the first time is watched and loaded (`Cache.track`).
* A written record replaces the entry of its identity, if it decodes to a credential whose identity
  is the name of the node; otherwise the entry stays as it was (`Cache.accept`).  Records of nodes
  that are not watched are not looked at.
* A deleted node is no longer watched, and the entry that its name stands for is gone.

An engine may take its credentials from a cache.
-/

namespace Gatekeeper

open Std (ExtTreeSet)

/-- How far a cache has come. -/
inductive Phase
  /-- It has not listed the children yet. -/
  | uninitialized
  /-- It is listing them. -/
  | syncing
  /-- It has loaded them all. -/
  | ready
  deriving DecidableEq, Repr

/-- The name of a phase where values are listed for people. -/
def Phase.label : Phase → String
  | .uninitialized => "Uninitialized"
  | .syncing => "Syncing"
  | .ready => "Ready"

/-- The credentials below one node. -/
structure Cache where
  /-- The path of the parent node. -/
  parent : String
  /-- The vault that hides the secrets. -/
  vault : Vault
  /-- The credentials by identity, for each component. -/
  entries : Partition Identity Credential
  /-- The names of the children whose records are watched. -/
  watched : ExtTreeSet String
  /-- How far it has come. -/
  phase : Phase
  /-- Whether the moment at which it got ready has been noted. -/
  stamped : Bool

namespace Cache

/-- A cache that has not looked at the store yet, and the order in which it is going to list the
credentials of each component. -/
def fresh (parent : String) (vault : Vault)
    (order : Component → Arrangement Identity Credential) : Cache :=
  ⟨parent, vault, .blank order, ∅, .uninitialized, false⟩

/-- A cache that has not looked at the store yet. -/
def new (parent : String) (vault : Vault) : Cache := fresh parent vault fun _ => .plain

/-- The order in which the credentials of a component are listed. -/
def order (c : Cache) (component : Component) : Arrangement Identity Credential :=
  (c.entries.shelf component).order

/-! ## Views -/

/-- The credential with this identity. -/
def get? (c : Cache) (i : Identity) : Option Credential :=
  i.component?.bind fun component => c.entries.get? component i

/-- The credential of a user at a component. -/
def lookup? (c : Cache) (username : String) (component : Component) : Option Credential :=
  c.entries.get? component (.of username component)

/-- The credentials at a component, in the order that the cache has for them. -/
def list (c : Cache) (component : Component) : List Credential := c.entries.values component

/-- All credentials. -/
def all (c : Cache) : List Credential := c.list .controller ++ c.list .broker

/-- The identities of all credentials, in ascending order. -/
def identities (c : Cache) : List Identity :=
  (c.entries.keys .controller ++ c.entries.keys .broker).mergeSort fun i j => (compare i j).isLE

instance : CredentialSource Cache where
  credentials c component := c.list component

/-- A description of a cache without its entries. -/
def redacted (c : Cache) : String :=
  "CredentialCache \x7b parent_path: " ++ Text.quoted c.parent ++ ", state: " ++ c.phase.label
    ++ ", .. \x7d"

/-! ## Following the store -/

/-- The cache once the record at a path has been taken in. -/
def accept (c : Cache) (path : String) (r : Record) : Cache :=
  match c.vault.decode r with
  | .error _ => c
  | .ok credential =>
    if credential.identity.text = Path.lastSegment path then
      { c with entries := c.entries.insert credential.component credential.identity credential }
    else c

/-- The cache once the entry that a name stands for is gone. -/
def forget (c : Cache) (name : String) : Cache :=
  match (Identity.mk name).component? with
  | some component => { c with entries := c.entries.erase component ⟨name⟩ }
  | none => c

/-- Loads the record at a path. -/
def load (c : Cache) (path : String) (l : Link) : Cache × Link :=
  match l.get path with
  | (.ok (some r), l) => (c.accept path r, l)
  | (_, l) => (c, l)

/-- Watches a child and loads it, unless it is watched already. -/
def trackChild (self : Watcher) (name : String) (c : Cache) (l : Link) : Cache × Link :=
  if name ∈ c.watched then (c, l)
  else
    let path := Path.child c.parent name
    { c with watched := c.watched.insert name }.load path (l.watchData path self)

/-- Watches children and loads them, one after another. -/
def track (self : Watcher) : List String → Cache → Link → Cache × Link
  | [], c, l => (c, l)
  | name :: names, c, l =>
    let (c, l) := trackChild self name c l
    track self names c l

/-- What a cache does when it is told of an event. -/
def receive (self : Watcher) (e : Event) (c : Cache) (l : Link) : Cache × Link :=
  match e with
  | .children path names => if path = c.parent then track self names c l else (c, l)
  | .changed path r => (if Path.lastSegment path ∈ c.watched then c.accept path r else c, l)
  | .deleted path =>
    let name := Path.lastSegment path
    ({ c with watched := c.watched.erase name }.forget name, l.unwatchData path self)

end Cache

end Gatekeeper
