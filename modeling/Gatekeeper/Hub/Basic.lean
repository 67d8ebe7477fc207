import Gatekeeper.Cache.Basic
import Gatekeeper.Credential.UserForm

/-!
# Hub/Basic — a store with everyone who listens to it

A `Hub` is a link to a store together with all who may be told of events: caches, by number, and
recorders, whose callbacks are kept in `heard`.  Events are delivered inside the write that causes
them, to the watchers that are registered when the event's turn comes, in the order of their
registration (`Hub.deliver`).

A recorder that is `armed` records its next callback and then breaks off: the rest of that write's
deliveries are lost, but what was written stays, and so does what was delivered before.

Races are writes that happen in the middle of something else.  They wait at a `RacePoint` and are
done, without faults, when it is next reached (`Hub.reach`); what came of each is kept in `raced`.
A race may turn out to have nothing to write (`Unwritable`); that is then what came of it.
-/

namespace Gatekeeper

open Std (ExtTreeMap ExtTreeSet)

/-- Why a write has no result. -/
inductive WriteError
  /-- The store failed; nothing was written. -/
  | store (e : StoreError)
  /-- The write was done, but this listener broke its delivery off. -/
  | brokenOff (listener : String)
  deriving DecidableEq, Repr

/-- A moment at which a race may happen. -/
inductive RacePoint
  /-- Right after someone has been registered for a node's children. -/
  | afterSubscribe
  /-- Right before children are listed. -/
  | beforeList
  /-- Right after children have been listed. -/
  | afterList
  deriving DecidableEq, Repr

/-- Why a credential that was to be written has no record. -/
inductive Unwritable
  /-- There is no such credential. -/
  | rejected (e : UserForm.Rejection)
  /-- Its secret cannot be hidden. -/
  | unencodable (e : Unencodable)
  deriving DecidableEq, Repr

/-- A write that waits for its moment, or why there is none. -/
abbrev Race := Except Unwritable Write

/-- What came of a race. -/
inductive RaceOutcome
  /-- There was nothing to write. -/
  | unwritable (e : Unwritable)
  /-- A write, and its result. -/
  | written (w : Write) (result : Except WriteError Bool)

/-- What came of a race, and where it led. -/
structure RaceReport where
  /-- What came of it. -/
  outcome : RaceOutcome
  /-- The caches after it. -/
  caches : ExtTreeMap Nat Cache

/-- A store with everyone who listens to it. -/
structure Hub where
  /-- The store, and the faults to come. -/
  link : Link
  /-- The caches that listen, by number. -/
  caches : ExtTreeMap Nat Cache
  /-- The recorders that break off at their next callback. -/
  armed : ExtTreeSet String
  /-- The callbacks of recorders so far. -/
  heard : List (String × Event)
  /-- The races that wait for a moment to come. -/
  races : RacePoint → List Race
  /-- What came of the races that have waited. -/
  raced : List RaceReport

namespace Hub

/-- An empty store that nobody listens to. -/
def empty : Hub := ⟨.empty, ∅, ∅, [], fun _ => [], []⟩

/-- The store. -/
abbrev store (h : Hub) : Store := h.link.store

/-! ## Delivery -/

/-- Tells one watcher of an event; whether it breaks off. -/
def tell (e : Event) (w : Watcher) (h : Hub) : Hub × Option String :=
  match w with
  | .recorder name =>
    let h := { h with heard := h.heard ++ [(name, e)] }
    if name ∈ h.armed then ({ h with armed := h.armed.erase name }, some name) else (h, none)
  | .cache id =>
    match h.caches[id]? with
    | none => (h, none)
    | some c =>
      let (c, l) := c.receive w e h.link
      ({ h with link := l, caches := h.caches.insert id c }, none)

/-- Tells watchers of an event one after another, until one breaks off. -/
def tellAll (e : Event) : List Watcher → Hub → Hub × Option String
  | [], h => (h, none)
  | w :: ws, h =>
    match tell e w h with
    | (h, some name) => (h, some name)
    | (h, none) => tellAll e ws h

/-- Delivers events one after another, each to its watchers at that time, until one breaks off. -/
def deliver : List Event → Hub → Hub × Option String
  | [], h => (h, none)
  | e :: es, h =>
    match tellAll e (h.store.watchersOf e) h with
    | (h, some name) => (h, some name)
    | (h, none) => deliver es h

/-! ## Writing -/

/-- Does a write and delivers its events, without regard to faults. -/
def write (w : Write) (h : Hub) : Except WriteError Bool × Hub :=
  match h.store.effect w with
  | .error e => (.error (.store e), h)
  | .ok effect =>
    match deliver effect.events { h with link.store := effect.store } with
    | (h, some name) => (.error (.brokenOff name), h)
    | (h, none) => (.ok effect.done, h)

/-- The call that a write makes, if faults are for it. -/
def callOf : Write → Option Call
  | .create _ _ => some .create
  | .set _ _ => some .set
  | .remove _ => some .remove
  | .notify _ => none

/-- Does a write unless a fault is to come for it. -/
def submit (w : Write) (h : Hub) : Except WriteError Bool × Hub :=
  match callOf w with
  | none => write w h
  | some call =>
    match h.link.failure? call with
    | (some e, l) => (.error (.store e), { h with link := l })
    | (none, l) => write w { h with link := l }

/-! ## Races -/

/-- Keeps what came of a race. -/
def report (outcome : RaceOutcome) (h : Hub) : Hub :=
  { h with raced := h.raced ++ [⟨outcome, h.caches⟩] }

/-- Does the write of a race that has waited, if it has one. -/
def race (h : Hub) : Race → Hub
  | .error e => h.report (.unwritable e)
  | .ok w =>
    let (result, h) := write w h
    h.report (.written w result)

/-- A moment has come: the races that waited for it happen. -/
def reach (point : RacePoint) (h : Hub) : Hub :=
  (h.races point).foldl race
    { h with races := fun p => if p = point then [] else h.races p }

/-- Lets races wait for a moment, in place of those that did. -/
def await (point : RacePoint) (rs : List Race) (h : Hub) : Hub :=
  { h with races := fun p => if p = point then rs else h.races p }

/-! ## Reading and watching -/

/-- Reads the record of a node. -/
def get (path : String) (h : Hub) : Except StoreError (Option Record) × Hub :=
  let (r, l) := h.link.get path
  (r, { h with link := l })

/-- Whether there is a node. -/
def exists? (path : String) (h : Hub) : Except StoreError Bool × Hub :=
  let (r, h) := h.get path
  (r.map Option.isSome, h)

/-- Lists the names directly below a path. -/
def list (path : String) (h : Hub) : Except StoreError (List String) × Hub :=
  let h := h.reach .beforeList
  match h.link.failure? .list with
  | (some e, l) => (.error e, { h with link := l })
  | (none, l) => (.ok (l.store.children path), { h with link := l }.reach .afterList)

/-- Registers a watcher for a node's children. -/
def watchChildren (path : String) (w : Watcher) (h : Hub) : Hub :=
  { h with link := h.link.watchChildren path w }.reach .afterSubscribe

/-- Registers a watcher for a node's record. -/
def watchData (path : String) (w : Watcher) (h : Hub) : Hub :=
  { h with link := h.link.watchData path w }

/-- Takes a registration for a node's record back. -/
def unwatchData (path : String) (w : Watcher) (h : Hub) : Hub :=
  { h with link := h.link.unwatchData path w }

/-- Arms a recorder. -/
def arm (name : String) (h : Hub) : Hub := { h with armed := h.armed.insert name }

/-- One more fault is to come. -/
def addFault (call : Call) (f : Fault) (h : Hub) : Hub :=
  { h with link := h.link.addFault call f }

/-! ## Caches -/

/-- The hub with a cache under a number. -/
def putCache (id : Nat) (c : Cache) (h : Hub) : Hub :=
  { h with caches := h.caches.insert id c }

/-- The hub without the caches that are not kept.  Their registrations stay, but nobody answers. -/
def keepCaches (keep : Nat → Bool) (h : Hub) : Hub :=
  { h with caches := h.caches.filter fun id _ => keep id }

/-- The hub with a cache changed, if it is there. -/
def changeCache (id : Nat) (f : Cache → Link → Cache × Link) (h : Hub) : Hub :=
  match h.caches[id]? with
  | none => h
  | some c =>
    let (c, l) := f c h.link
    { h with link := l, caches := h.caches.insert id c }

/-- A cache enters a phase. -/
def enter (id : Nat) (phase : Phase) (h : Hub) : Hub :=
  h.changeCache id fun c l => ({ c with phase }, l)

/-- Starts a cache: it is registered for its parent's children and then lists and loads them.
Nothing happens if it has been started before; if the listing fails, it can be started again. -/
def start (id : Nat) (h : Hub) : Except StoreError Unit × Hub :=
  match h.caches[id]? with
  | none => (.ok (), h)
  | some c =>
    if c.phase = .uninitialized then
      match ((h.enter id .syncing).watchChildren c.parent (.cache id)).list c.parent with
      | (.error e, h) => (.error e, h.enter id .uninitialized)
      | (.ok names, h) =>
        (.ok (), h.changeCache id fun c l =>
          let (c, l) := c.track (.cache id) names l
          ({ c with phase := .ready, stamped := true }, l))
    else (.ok (), h)

end Hub

end Gatekeeper
