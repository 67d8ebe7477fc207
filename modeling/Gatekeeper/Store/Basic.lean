import Gatekeeper.Store.Path
import Gatekeeper.Store.Watch

/-!
# Store/Basic — records under paths, and the events of writing them

A `Store` holds a record for each of its paths, and the registrations of those who watch them.
`Store.effect` is what a `Write` does to it: the new records, the events that follow, and whether
there was anything to do.

* Creating a node or writing a new one tells of the parent's children and then of the node; writing
  an old one tells of the node alone.
* Deleting a node tells of the node and then of the parent's children.
* A path without a `/` has no parent to tell of.

`Store.children` lists the names directly below a path in ascending order, as `childName?` finds
them; what is further below does not count.  Paths that begin alike stand together, so `Store.below`
reads on from where they would stand, and ends with the first that begins otherwise.
-/

namespace Gatekeeper

open Std (ExtTreeMap)

/-- How the store fails. -/
inductive StoreError
  /-- There is a node where one was to be created. -/
  | nodeExists (path : String)
  /-- The store can no longer be trusted. -/
  | poisoned
  /-- Something behind the store failed. -/
  | backend (reason : String)
  deriving DecidableEq, Repr

/-- What is said of the store's failure. -/
def StoreError.message : StoreError → String
  | .nodeExists path => s!"node already exists: {path}"
  | .poisoned => "store state poisoned"
  | .backend reason => s!"store backend failure: {reason}"

/-- Something done to the store from outside. -/
inductive Write
  /-- Creates a node where there is none. -/
  | create (path : String) (record : Record)
  /-- Writes a node, new or old. -/
  | set (path : String) (record : Record)
  /-- Deletes a node. -/
  | remove (path : String)
  /-- Delivers an event although nothing happened. -/
  | notify (event : Event)
  deriving DecidableEq

/-- Records under paths, and who watches them. -/
structure Store where
  /-- The record of each node. -/
  nodes : ExtTreeMap String Record
  /-- Who is told of a node's children. -/
  childWatches : Watches
  /-- Who is told of a node's record. -/
  dataWatches : Watches
  deriving DecidableEq

/-- What a write does. -/
structure Effect where
  /-- The store after it. -/
  store : Store
  /-- The events to be delivered. -/
  events : List Event
  /-- Whether there was anything to do. -/
  done : Bool

namespace Store

/-- A store without nodes and watchers. -/
def empty : Store := ⟨∅, .empty, .empty⟩

/-- The paths of the nodes below a path, however far below, in ascending order: all from the stem
on, as long as they begin with it. -/
def below (s : Store) (path : String) : List String :=
  let stem := Path.childStem path
  (s.nodes.keys.filter fun q => (compare (String.ofList stem) q).isLE).takeWhile
    fun q => stem.isPrefixOf q.toList

/-- The names of the nodes directly below a path, in ascending order. -/
def children (s : Store) (path : String) : List String :=
  (s.below path).filterMap (Path.childName? path)

/-- The event that tells of the children of a path's parent. -/
def siblingEvent (s : Store) (path : String) : List Event :=
  match Path.parent? path with
  | some parent => [.children parent (s.children parent)]
  | none => []

/-- The watchers that an event is for. -/
def watchersOf (s : Store) (e : Event) : List Watcher :=
  match e with
  | .children path _ => s.childWatches.forPath path
  | .changed path _ => s.dataWatches.forPath path
  | .deleted path => s.dataWatches.forPath path

/-- The store with a record at a path. -/
def put (s : Store) (path : String) (record : Record) : Store :=
  { s with nodes := s.nodes.insert path record }

/-- The store without a node. -/
def delete (s : Store) (path : String) : Store :=
  { s with nodes := s.nodes.erase path }

/-- What a write does to the store. -/
def effect (s : Store) : Write → Except StoreError Effect
  | .create path record =>
    if path ∈ s.nodes then .error (.nodeExists path)
    else
      let t := s.put path record
      .ok ⟨t, t.siblingEvent path ++ [.changed path record], true⟩
  | .set path record =>
    let t := s.put path record
    .ok ⟨t, (if path ∈ s.nodes then [] else t.siblingEvent path) ++ [.changed path record], true⟩
  | .remove path =>
    if path ∈ s.nodes then
      let t := s.delete path
      .ok ⟨t, .deleted path :: t.siblingEvent path, true⟩
    else .ok ⟨s, [], false⟩
  | .notify event => .ok ⟨s, [event], true⟩

/-- A description of the store by its size. -/
def describe (s : Store) : String :=
  "InMemoryCoordinationStore \x7b nodes: " ++ toString s.nodes.size ++ ", .. \x7d"

end Store

end Gatekeeper
