import Gatekeeper.Admin
import Gatekeeper.Cipher.Reversing

/-!
# Proofs/Hub/Run — what may happen to a hub, and what was written in the course of it

A `Run` starts from an empty store with caches that have not been started, whatever the order in which
each of them is going to list its entries, and does one `Act` after another: writes, the tasks of
administrators, readings and registrations, faults and races that are announced, caches that are
started or dropped.  A cache that is new at some moment is one that has not been started before it,
so nothing is lost by having all of them from the beginning.

`Act.begin` is a start of a cache as far as its registration; what holds of a run that goes on from
there holds in the middle of a start.

`Limits` bound what a run may do.  The run keeps a log of its `Deed`s, the writes that took effect,
each with the caches after it.  The **chronicle** of a node is read off the log: the records written
to it since its creation, the newest first.
-/

namespace Gatekeeper

open Std (ExtTreeMap)

/-! ## Tasks of an administrator -/

namespace Admin

/-- What an administrator is asked for. -/
inductive Task
  | add (c : Credential)
  | addForm (f : UserForm)
  | update (username : String) (component : Component) (c : Credential)
  | delete (username : String) (component : Component)
  | seek (username : String) (component : Component)
  | list
  | get (username : String) (component : Component)

/-- The outcome of a task without what it found. -/
def outcome {α : Type} (p : Except AdminError α × Hub) : Except AdminError Unit × Hub :=
  (p.1.map fun _ => (), p.2)

/-- Does a task. -/
def Task.run (a : Admin) : Task → Hub → Except AdminError Unit × Hub
  | .add c, h => outcome (a.add c h)
  | .addForm f, h => outcome (a.addForm f h)
  | .update username component c, h => outcome (a.update username component c h)
  | .delete username component, h => outcome (a.delete username component h)
  | .seek username component, h => outcome (a.exists? username component h)
  | .list, h => outcome (a.list h)
  | .get username component, h => outcome (a.get username component h)

/-- The write that adds a credential, if it may be added. -/
def creation? (a : Admin) (c : Credential) : Option Write :=
  if mayName c.username then (a.vault.encode c).toOption.map (.create (a.path c.identity))
  else none

/-- The write that a task comes down to, if it may be done. -/
def Task.write? (a : Admin) : Task → Option Write
  | .add c => a.creation? c
  | .addForm f => f.credential.toOption.bind a.creation?
  | .update username component c =>
    if c.identity = addressed username component then
      (a.vault.encode c).toOption.map (.set (a.path (addressed username component)))
    else none
  | .delete username component => some (.remove (a.path (addressed username component)))
  | .seek _ _ | .list | .get _ _ => none

/-- Whether a task with this outcome did its write, if it has one. -/
def didWrite : Except AdminError Unit → Bool
  | .ok () | .error (.brokenOff _) => true
  | .error _ => false

end Admin

/-! ## Deeds -/

/-- A write that took effect, and the caches after it. -/
structure Deed where
  write : Write
  caches : ExtTreeMap Nat Cache

/-- Whether a write with this result took effect. -/
def WriteError.tookEffect : Except WriteError Bool → Bool
  | .ok done => done
  | .error (.brokenOff _) => true
  | .error (.store _) => false

/-- The deed that a write with this result is, if it took effect. -/
def Deed.of (w : Write) (result : Except WriteError Bool) (caches : ExtTreeMap Nat Cache) :
    List Deed :=
  if WriteError.tookEffect result then [⟨w, caches⟩] else []

/-- The deed that a race was, if it took effect. -/
def RaceReport.deeds (r : RaceReport) : List Deed :=
  match r.outcome with
  | .unwritable _ => []
  | .written w result => Deed.of w result r.caches

/-- The records of a node, newest first, with one more deed. -/
def Deed.note (path : String) (rs : List (Record × ExtTreeMap Nat Cache)) (d : Deed) :
    List (Record × ExtTreeMap Nat Cache) :=
  match d.write with
  | .create p r | .set p r => if p = path then (r, d.caches) :: rs else rs
  | .remove p => if p = path then [] else rs
  | .notify _ => rs

/-- **The chronicle of a node**: the records written to it since its creation, the newest first,
each with the caches after it was written. -/
def chronicle (path : String) (log : List Deed) : List (Record × ExtTreeMap Nat Cache) :=
  log.foldl (Deed.note path) []

@[simp] theorem chronicle_nil (path : String) : chronicle path [] = [] := rfl

@[simp] theorem chronicle_concat (path : String) (log : List Deed) (d : Deed) :
    chronicle path (log ++ [d]) = d.note path (chronicle path log) := by
  simp [chronicle]

/-! ## Acts -/

/-- A start of a cache, as far as its registration. -/
def Hub.begin (id : Nat) (h : Hub) : Hub :=
  match h.caches[id]? with
  | none => h
  | some c =>
    if c.phase = .uninitialized then
      (h.enter id .syncing).watchChildren c.parent (.cache id)
    else h

/-- Something done to a hub. -/
inductive Act
  /-- A write, unless a fault is to come for it. -/
  | write (w : Write)
  /-- A task of an administrator. -/
  | administer (a : Admin) (t : Admin.Task)
  /-- Someone reads a node. -/
  | read (path : String)
  /-- Someone lists a node's children. -/
  | list (path : String)
  /-- A recorder is registered for a node's children. -/
  | watchChildren (path name : String)
  /-- A recorder is registered for a node's record. -/
  | watchData (path name : String)
  /-- A recorder's registration for a node's record is taken back. -/
  | unwatchData (path name : String)
  /-- A recorder is armed. -/
  | arm (name : String)
  /-- A fault is announced. -/
  | fault (call : Call) (f : Fault)
  /-- Races are announced. -/
  | await (point : RacePoint) (rs : List Race)
  /-- A cache is started, as far as its registration. -/
  | begin (id : Nat)
  /-- A cache is started. -/
  | start (id : Nat)
  /-- Caches are dropped. -/
  | keep (kept : Nat → Bool)

namespace Act

/-- The hub after an act. -/
def perform (h : Hub) : Act → Hub
  | write w => (h.submit w).2
  | administer a t => (t.run a h).2
  | read path => (h.get path).2
  | list path => (h.list path).2
  | watchChildren path name => h.watchChildren path (.recorder name)
  | watchData path name => h.watchData path (.recorder name)
  | unwatchData path name => h.unwatchData path (.recorder name)
  | arm name => h.arm name
  | fault call f => h.addFault call f
  | await point rs => h.await point rs
  | begin id => h.begin id
  | start id => (h.start id).2
  | keep kept => h.keepCaches kept

/-- What an act itself writes, if that took effect. -/
def own (h : Hub) : Act → List Deed
  | write w => Deed.of w (h.submit w).1 (h.submit w).2.caches
  | administer a t =>
    if Admin.didWrite (t.run a h).1 then (t.write? a).toList.map (⟨·, (t.run a h).2.caches⟩)
    else []
  | _ => []

/-- The deeds of an act: its own, and those of the races that were met. -/
def deeds (h : Hub) (a : Act) : List Deed :=
  a.own h ++ ((a.perform h).raced.drop h.raced.length).flatMap RaceReport.deeds

end Act

/-- Acts done one after another: the log with their deeds, and the hub after them. -/
def Act.performAll : List Act → List Deed → Hub → List Deed × Hub
  | [], log, h => (log, h)
  | a :: as, log, h => performAll as (log ++ a.deeds h) (a.perform h)

/-! ## Runs -/

/-- What a run may do. -/
structure Limits where
  /-- The writes that may be done. -/
  writes : Write → Prop
  /-- Whether recorders may be armed. -/
  arming : Prop
  /-- The calls that may have faults. -/
  faults : Call → Prop

/-- The limits allow the act. -/
def Act.Within (z : Limits) : Act → Prop
  | write w => z.writes w
  | administer a t => ∀ w, t.write? a = some w → z.writes w
  | arm _ => z.arming
  | fault call _ => z.faults call
  | await _ rs => ∀ w, .ok w ∈ rs → z.writes w
  | _ => True

/-- **A run**: what was written, and the hub that it led to. -/
inductive Run (z : Limits) : List Deed → Hub → Prop
  | initial {caches : ExtTreeMap Nat Cache}
      (hnew : ∀ (id : Nat) (c : Cache), caches[id]? = some c →
        c = Cache.fresh c.parent c.vault c.order) :
      Run z [] { Hub.empty with caches }
  | act {log : List Deed} {h : Hub} {a : Act} (hr : Run z log h) (ha : a.Within z) :
      Run z (log ++ a.deeds h) (a.perform h)

/-- A write of records, and not an event that is made up. -/
def Write.IsGenuine : Write → Prop
  | .notify _ => False
  | _ => True

/-- Genuine writes, listeners that do not break off, and faults for some calls. -/
def Limits.genuine (faults : Call → Prop) : Limits := ⟨Write.IsGenuine, False, faults⟩

/-- Nothing fails: writes are genuine, listeners do not break off, and no call has a fault. -/
def Limits.faultless : Limits := .genuine fun _ => False

/-- No limits. -/
def Limits.boundless : Limits := ⟨fun _ => True, True, fun _ => True⟩

theorem Act.within_boundless (a : Act) : a.Within .boundless := by
  cases a with
  | administer a t => exact fun _ _ => trivial
  | await point rs => exact fun _ _ => trivial
  | _ => trivial

theorem Run.performAll {z : Limits} : ∀ {as : List Act} {log : List Deed} {h : Hub},
    Run z log h → (∀ a ∈ as, a.Within z) →
      Run z (Act.performAll as log h).1 (Act.performAll as log h).2
  | [], _, _, hr, _ => hr
  | _ :: _, _, _, hr, has =>
    (hr.act (has _ List.mem_cons_self)).performAll fun a ha => has a (List.mem_cons_of_mem _ ha)

/-- An administrator writes nothing but records. -/
theorem Admin.Task.genuine {a : Admin} {t : Task} {w : Write} (h : t.write? a = some w) :
    w.IsGenuine := by
  have hcreation : ∀ c, a.creation? c = some w → w.IsGenuine := by
    intro c hc
    rw [creation?] at hc
    split at hc
    · obtain ⟨r, -, rfl⟩ := Option.map_eq_some_iff.mp hc
      trivial
    · cases hc
  cases t with
  | add c => exact hcreation c h
  | addForm f =>
    rw [Task.write?] at h
    obtain ⟨c, -, hc⟩ := Option.bind_eq_some_iff.mp h
    exact hcreation c hc
  | update username component c =>
    rw [Task.write?] at h
    split at h
    · obtain ⟨r, -, rfl⟩ := Option.map_eq_some_iff.mp h
      trivial
    · cases h
  | delete username component =>
    cases h
    trivial
  | seek username component => cases h
  | list => cases h
  | get username component => cases h

/-! ## A small run -/

/-- A vault with a stand-in cipher. -/
def sampleVault : Vault := ⟨.reversing, "key"⟩

/-- Whoever administers the credentials of the small runs. -/
def sampleAdmin : Admin := ⟨"/users", sampleVault⟩

/-- Someone who reads two tables. -/
def sampleForm (password : String) : UserForm where
  username := "ann"
  password
  component := "BROKER"
  role := "USER"
  tables := some ["orders", "users"]
  permissions := none

/-- The record of someone at a broker, with a hidden secret. -/
def recordOf (username hidden : String) : Record :=
  Record.empty (username ++ "_BROKER")
    |>.withSimple "username" username
    |>.withSimple "password" hidden
    |>.withSimple "component" "BROKER"
    |>.withSimple "role" "USER"

/-- A store with one cache that has not been started. -/
def sampleHub : Hub :=
  { Hub.empty with caches := (∅ : ExtTreeMap Nat Cache).insert 0 (.new "/users" sampleVault) }

theorem new_sampleHub (id : Nat) (c : Cache) (hc : sampleHub.caches[id]? = some c) :
    c = Cache.fresh c.parent c.vault c.order := by
  simp only [sampleHub, ExtTreeMap.getElem?_insert, ExtTreeMap.getElem?_empty,
    Option.ite_none_right_eq_some, Option.some.injEq] at hc
  rw [← hc.2]
  rfl

/-- A credential is added, a first start of the cache fails, and in the middle of a second one a
node comes to be that holds nothing of use. -/
def sampleActs : List Act :=
  [.administer sampleAdmin (.addForm (sampleForm "pw")),
    .fault .list (.fails .poisoned), .start 0,
    .await .afterList [.ok (.set "/users/bob_BROKER" (.empty "bob"))], .start 0]

/-- The log and the hub after a small run. -/
def sampleRun : List Deed × Hub := Act.performAll sampleActs [] sampleHub

theorem run_sample : Run (.genuine (· ≠ .get)) sampleRun.1 sampleRun.2 := by
  refine Run.performAll (.initial new_sampleHub) ?_
  simp only [sampleActs, List.forall_mem_cons, List.not_mem_nil, false_imp_iff, implies_true,
    and_true]
  refine ⟨fun w hw => Admin.Task.genuine hw, nofun, trivial, fun w hw => ?_, trivial⟩
  obtain rfl : w = .set "/users/bob_BROKER" (.empty "bob") := by simpa using hw
  trivial

end Gatekeeper
