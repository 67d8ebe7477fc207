import Gatekeeper.Admin
import Gatekeeper.Settings

/-!
# Registry — caches, administrators and access controls by name

A `Registry` gives names to what lives on a hub.  A cache is known by its name once it has been
registered, and it lives as long as it is registered or an access control holds it; after that its
registrations at the store remain, but nobody answers them.

A `Control` is what settings make: a cache that has been started, an engine for the component of the
settings, and an administrator, which is known by the same name.
-/

namespace Gatekeeper

open Std (ExtTreeMap)

/-- What settings make: a cache, and the component that requests are for. -/
structure Control where
  /-- The number of the cache. -/
  cache : Nat
  /-- The component. -/
  component : Component
  deriving DecidableEq, Repr

/-- What is known by name. -/
structure Registry where
  /-- The store and its listeners. -/
  hub : Hub
  /-- The number that the next cache gets. -/
  nextCache : Nat
  /-- The caches by name. -/
  caches : ExtTreeMap String Nat
  /-- The administrators by name. -/
  admins : ExtTreeMap String Admin
  /-- The access controls by name. -/
  controls : ExtTreeMap String Control

/-- How much a cache holds. -/
structure CacheStats where
  /-- How far it has come. -/
  phase : Phase
  /-- Whether the moment at which it got ready has been noted. -/
  stamped : Bool
  /-- How many credentials of controllers it holds. -/
  controllers : Nat
  /-- How many credentials of brokers it holds. -/
  brokers : Nat
  /-- How many children it watches. -/
  watched : Nat
  /-- The identities that it holds, in ascending order. -/
  identities : List Identity
  deriving DecidableEq, Repr

/-- How much a cache holds. -/
def Cache.stats (c : Cache) : CacheStats where
  phase := c.phase
  stamped := c.stamped
  controllers := c.entries.size .controller
  brokers := c.entries.size .broker
  watched := c.watched.size
  identities := c.identities

/-- The answer to a request, asked in every way. -/
structure Asked where
  /-- Whether the request is granted. -/
  authorized : Bool
  /-- The same, asked by the way that is there for this kind of request. -/
  shortcut : Bool
  /-- Whoever is asking. -/
  principal : Option Credential
  /-- The answer with reasons. -/
  explanation : Explanation

/-- Asks an engine in every way. -/
def Engine.ask {σ : Type} [CredentialSource σ] (e : Engine σ) (headers : List Header)
    (request : Request) : Asked where
  authorized := e.authorize headers request
  shortcut := match request with
    | .table t => e.mayRead headers t
    | .action t a => e.mayAct headers t a
    | .admin => e.isAdmin headers
    | .authenticated => e.isKnown headers
  principal := e.resolve? headers
  explanation := e.explain headers request

namespace Registry

/-- Nothing but an empty store. -/
def empty : Registry := ⟨.empty, 0, ∅, ∅, ∅⟩

/-- Whether a cache is registered or held by a control. -/
def holds (s : Registry) (id : Nat) : Bool :=
  s.caches.values.contains id || s.controls.values.any (·.cache == id)

/-- The registry without the caches that nothing holds. -/
def sweep (s : Registry) : Registry := { s with hub := s.hub.keepCaches s.holds }

/-- Does something to the hub. -/
def onHub {α : Type} (s : Registry) (f : Hub → α × Hub) : α × Registry :=
  let (a, hub) := f s.hub
  (a, { s with hub })

/-- The cache of this name. -/
def cache? (s : Registry) (name : String) : Option Cache :=
  s.caches[name]?.bind fun id => s.hub.caches[id]?

/-- How much each registered cache holds, where the caches are these. -/
def statsOf (s : Registry) (caches : ExtTreeMap Nat Cache) : List (String × CacheStats) :=
  s.caches.toList.filterMap fun (name, id) => caches[id]?.map fun c => (name, c.stats)

/-- How much each registered cache holds. -/
def stats (s : Registry) : List (String × CacheStats) := s.statsOf s.hub.caches

/-! ## Caches -/

/-- A cache that is not registered yet, and its number. -/
def addCache (s : Registry) (c : Cache) : Nat × Registry :=
  (s.nextCache, { s with hub := s.hub.putCache s.nextCache c, nextCache := s.nextCache + 1 })

/-- Registers a new cache. -/
def newCache (name : String) (c : Cache) (s : Registry) : Registry :=
  let (id, s) := s.addCache c
  { s with caches := s.caches.insert name id }.sweep

/-- Starts a new cache, and registers it if that succeeds. -/
def startCache (name : String) (c : Cache) (s : Registry) : Except StoreError Unit × Registry :=
  let (id, s) := s.addCache c
  match s.onHub (Hub.start id) with
  | (.error e, s) => (.error e, s.sweep)
  | (.ok (), s) => (.ok (), { s with caches := s.caches.insert name id }.sweep)

/-- Starts a registered cache; `none` if there is none of this name. -/
def initCache (name : String) (s : Registry) : Option (Except StoreError Unit) × Registry :=
  match s.caches[name]? with
  | none => (none, s)
  | some id =>
    let (r, s) := s.onHub (Hub.start id)
    (some r, s)

/-- Forgets a cache and the control of the same name; whether there was such a cache. -/
def dropCache (name : String) (s : Registry) : Bool × Registry :=
  (s.caches.contains name,
    { s with caches := s.caches.erase name, controls := s.controls.erase name }.sweep)

/-! ## Administrators and controls -/

/-- Registers an administrator. -/
def newAdmin (name : String) (a : Admin) (s : Registry) : Registry :=
  { s with admins := s.admins.insert name a }

/-- Starts what settings describe, and registers its cache and its administrator if that
succeeds. -/
def newControl (name : String) (settings : Settings) (cipher : Cipher) (s : Registry) :
    Except StoreError Unit × Registry :=
  let vault : Vault := ⟨cipher, settings.key⟩
  let (id, s) := s.addCache (.new settings.path vault)
  match s.onHub (Hub.start id) with
  | (.error e, s) => (.error e, s.sweep)
  | (.ok (), s) =>
    (.ok (), { s with
      caches := s.caches.insert name id
      admins := s.admins.insert name ⟨settings.path, vault⟩
      controls := s.controls.insert name ⟨id, settings.component⟩ }.sweep)

/-- The cache and the component of a control. -/
def control? (s : Registry) (name : String) : Option (Cache × Component) :=
  s.controls[name]?.bind fun c => s.hub.caches[c.cache]?.map (·, c.component)

/-- A description of a control by its cache. -/
def describeControl (c : Cache) : String :=
  "AccessControl \x7b cache: " ++ c.redacted ++ ", .. \x7d"

end Registry

end Gatekeeper
