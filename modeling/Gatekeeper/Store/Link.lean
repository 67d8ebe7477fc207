import Gatekeeper.Store.Basic

/-!
# Store/Link — a store that may fail

A `Link` is what everyone reaches the store through.  For each kind of `Call` it holds faults that
are still to come, in order; a call takes the next one of its kind before it does anything.  A fault
fails the call, except that an `absent` node only makes a read find nothing.
-/

namespace Gatekeeper

/-- A kind of call to the store. -/
inductive Call
  | get
  | set
  | create
  | remove
  | list
  deriving DecidableEq, Repr

/-- What is wrong with a call. -/
inductive Fault
  /-- It fails. -/
  | fails (e : StoreError)
  /-- It finds no node. -/
  | absent
  deriving DecidableEq, Repr

/-- A store, and the faults to come. -/
structure Link where
  /-- The store. -/
  store : Store
  /-- The faults to come, with the calls that they are for. -/
  faults : List (Call × Fault)
  deriving DecidableEq

namespace Link

/-- A faultless link to an empty store. -/
def empty : Link := ⟨.empty, []⟩

/-- The first fault for a call, and the others. -/
def takeFrom (call : Call) : List (Call × Fault) → Option Fault × List (Call × Fault)
  | [] => (none, [])
  | (c, f) :: rest =>
    if c = call then (some f, rest)
    else ((takeFrom call rest).1, (c, f) :: (takeFrom call rest).2)

/-- The next fault for a call, and the link without it. -/
def takeFault (l : Link) (call : Call) : Option Fault × Link :=
  ((takeFrom call l.faults).1, { l with faults := (takeFrom call l.faults).2 })

/-- The link with one more fault to come. -/
def addFault (l : Link) (call : Call) (f : Fault) : Link :=
  { l with faults := l.faults ++ [(call, f)] }

/-- Takes the next fault of a call that does not read: the error it fails with, if it does. -/
def failure? (l : Link) (call : Call) : Option StoreError × Link :=
  match l.takeFault call with
  | (some (.fails e), l) => (some e, l)
  | (_, l) => (none, l)

/-- Reads the record of a node. -/
def get (l : Link) (path : String) : Except StoreError (Option Record) × Link :=
  match l.takeFault .get with
  | (some (.fails e), l) => (.error e, l)
  | (some .absent, l) => (.ok none, l)
  | (none, l) => (.ok l.store.nodes[path]?, l)

/-- Registers a watcher for a node's record. -/
def watchData (l : Link) (path : String) (w : Watcher) : Link :=
  { l with store.dataWatches := l.store.dataWatches.add path w }

/-- Takes a registration for a node's record back. -/
def unwatchData (l : Link) (path : String) (w : Watcher) : Link :=
  { l with store.dataWatches := l.store.dataWatches.drop path w }

/-- Registers a watcher for a node's children. -/
def watchChildren (l : Link) (path : String) (w : Watcher) : Link :=
  { l with store.childWatches := l.store.childWatches.add path w }

end Link

end Gatekeeper
