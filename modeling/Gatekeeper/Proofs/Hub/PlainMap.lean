import Gatekeeper.Proofs.Hub.Lasting
import Mathlib.Data.List.Forall2

/-!
# Proofs/Hub/PlainMap — the store is a plain map, whoever listens

What a store holds is a map of paths to records (`Store.contents`), and a write does to it what it
does to a plain map that nobody watches (`PlainMap.write`).  Listeners read, register and break off
in the middle of its delivery, and make no difference to it (`contents_write`).  What comes of the
write is what comes of it on the plain map, unless a recorder that was armed broke off (`Answers`).

`Run.plain` says so of a whole run, and of any writes that follow it: the store mirrors a plain map
(`Hub.Mirrors`).  Its records are those of the map, and the children that it lists are exactly the
nodes of the map directly below a path, in strictly ascending order.
-/

namespace Gatekeeper

open Std (ExtTreeMap ExtTreeSet)

/-! ## Plain maps -/

/-- Records under paths, and nothing else. -/
abbrev PlainMap := String → Option Record

namespace PlainMap

/-- The result of a write to a plain map, and the map after it. -/
def write (w : Write) (m : PlainMap) : Except StoreError Bool × PlainMap :=
  match w with
  | .create path r =>
    if (m path).isSome then (.error (.nodeExists path), m)
    else (.ok true, Function.update m path (some r))
  | .set path r => (.ok true, Function.update m path (some r))
  | .remove path => (.ok (m path).isSome, Function.update m path none)
  | .notify _ => (.ok true, m)

/-- A write that does nothing leaves the map as it is. -/
theorem write_of_idle {w : Write} {m : PlainMap} (h : (m.write w).1 ≠ .ok true) :
    (m.write w).2 = m := by
  cases w with
  | create path r =>
    rw [write] at h ⊢
    split at h
    · next hsome => rw [if_pos hsome]
    · exact absurd rfl h
  | set path r => exact absurd rfl h
  | remove path =>
    have hnone : m path = none := by simpa [write] using h
    rw [write, ← hnone, Function.update_eq_self]
  | notify e => rfl

/-- The plain map that the writes of a log lead to, from one without records. -/
def replay (log : List Deed) : PlainMap :=
  log.foldl (fun m d => (write d.write m).2) fun _ => none

@[simp] theorem replay_nil : replay [] = fun _ => none := rfl

@[simp] theorem replay_concat (log : List Deed) (d : Deed) :
    replay (log ++ [d]) = (write d.write (replay log)).2 := by
  simp [replay]

end PlainMap

/-- Writes done one after another: the result of each, and where they lead. -/
def inTurn {σ ρ : Type} (step : Write → σ → ρ × σ) : List Write → σ → List ρ × σ
  | [], s => ([], s)
  | w :: ws, s =>
    let (r, s) := step w s
    let (rs, s) := inTurn step ws s
    (r :: rs, s)

theorem inTurn_cons {σ ρ : Type} (step : Write → σ → ρ × σ) (w : Write) (ws : List Write) (s : σ) :
    inTurn step (w :: ws) s
      = ((step w s).1 :: (inTurn step ws (step w s).2).1, (inTurn step ws (step w s).2).2) := rfl

/-! ## One write -/

namespace Store

/-- The records of a store as a plain map. -/
def contents (s : Store) : PlainMap := fun path => s.nodes[path]?

theorem contents_put (s : Store) (path : String) (r : Record) :
    (s.put path r).contents = Function.update s.contents path (some r) := by
  funext q
  by_cases hq : q = path
  · simp [hq, contents, put]
  · simp [hq, Ne.symm hq, contents, put, ExtTreeMap.getElem?_insert]

theorem contents_delete (s : Store) (path : String) :
    (s.delete path).contents = Function.update s.contents path none := by
  funext q
  by_cases hq : q = path
  · simp [hq, contents, delete]
  · simp [hq, Ne.symm hq, contents, delete, ExtTreeMap.getElem?_erase]

theorem contents_congr {s t : Store} (h : s.nodes = t.nodes) : s.contents = t.contents := by
  funext path
  rw [contents, contents, h]

theorem isSome_contents {s : Store} {path : String} :
    (s.contents path).isSome = true ↔ path ∈ s.nodes :=
  ExtTreeMap.mem_iff_isSome_getElem?.symm

/-- **What a write does to a store is what it does to a plain map**, and so is its result. -/
theorem write_contents {s : Store} {w : Write} {effect : Effect} (h : s.effect w = .ok effect) :
    s.contents.write w = (.ok effect.done, effect.store.contents) := by
  have hsome := @isSome_contents s
  cases w with
  | create path r =>
    rw [Store.effect] at h
    split at h
    · cases h
    · next hout =>
      cases h
      rw [PlainMap.write, if_neg (mt hsome.mp hout), contents_put]
  | set path r =>
    cases h
    rw [PlainMap.write, contents_put]
  | remove path =>
    rw [Store.effect] at h
    split at h
    · next hin =>
      cases h
      rw [PlainMap.write, hsome.mpr hin, contents_delete]
    · next hout =>
      cases h
      have hnone : s.contents path = none := Option.not_isSome_iff_eq_none.mp (mt hsome.mp hout)
      have hsame : Function.update s.contents path none = s.contents := by
        rw [← hnone, Function.update_eq_self]
      rw [PlainMap.write, hsame, hnone]
      rfl
  | notify e =>
    cases h
    rfl

/-- The store refuses what a plain map refuses. -/
theorem write_contents_of_error {s : Store} {w : Write} {e : StoreError}
    (h : s.effect w = .error e) : s.contents.write w = (.error e, s.contents) := by
  cases w with
  | create path r =>
    rw [Store.effect] at h
    split at h
    · next hin =>
      cases h
      rw [PlainMap.write, if_pos (isSome_contents.mpr hin)]
    · cases h
  | remove path =>
    rw [Store.effect] at h
    split at h <;> cases h
  | set path r => cases h
  | notify e' => cases h

/-- A write that has an event to tell of has done something. -/
theorem done_of_events {s : Store} {w : Write} {effect : Effect} (h : s.effect w = .ok effect)
    (hevents : effect.events ≠ []) : effect.done = true := by
  obtain ⟨_, _, -, rfl⟩ | ⟨_, -, rfl⟩ | ⟨_, -, -, rfl⟩ | ⟨_, -, rfl⟩ := effect_cases h
  · rfl
  · rfl
  · exact absurd rfl hevents
  · rfl

end Store

/-- **What may come of a write**, where these recorders are armed and this comes of it on a plain
map: the same, or that one of them broke its delivery off. -/
inductive Answers (armed : ExtTreeSet String) :
    Except StoreError Bool → Except WriteError Bool → Prop
  /-- It was refused. -/
  | refused (e : StoreError) : Answers armed (.error e) (.error (.store e))
  /-- It was done, or there was nothing to do. -/
  | done (b : Bool) : Answers armed (.ok b) (.ok b)
  /-- It was done, and its delivery was broken off. -/
  | brokenOff {name : String} (hname : name ∈ armed) :
    Answers armed (.ok true) (.error (.brokenOff name))

theorem Answers.mono {armed armed' : ExtTreeSet String} {plain : Except StoreError Bool}
    {result : Except WriteError Bool} (h : Answers armed plain result)
    (hsub : ∀ name ∈ armed, name ∈ armed') : Answers armed' plain result := by
  cases h with
  | refused e => exact .refused e
  | done b => exact .done b
  | brokenOff hname => exact .brokenOff (hsub _ hname)

/-- What took effect is what a plain map did. -/
theorem Answers.tookEffect_iff {armed : ExtTreeSet String} {plain : Except StoreError Bool}
    {result : Except WriteError Bool} (h : Answers armed plain result) :
    WriteError.tookEffect result = true ↔ plain = .ok true := by
  cases h <;> simp [WriteError.tookEffect]

namespace Hub

/-- **A write leads where it leads on a plain map**, whoever listens and breaks off. -/
theorem contents_write (w : Write) (h : Hub) :
    (h.write w).2.store.contents = (h.store.contents.write w).2 := by
  obtain ⟨e, herr, he⟩ | ⟨effect, heff, he⟩ := write_cases w h
  · rw [he, Store.write_contents_of_error herr]
  · have hnodes := (kept_deliver effect.events { h with link.store := effect.store }).nodes
    rw [he, Store.write_contents heff, Store.contents_congr hnodes]

/-- **What comes of a write is what comes of it on a plain map**, or it was broken off. -/
theorem answers_write (w : Write) (h : Hub) :
    Answers h.armed (h.store.contents.write w).1 (h.write w).1 := by
  obtain ⟨e, herr, he⟩ | ⟨effect, heff, he⟩ := write_cases w h
  · rw [he, Store.write_contents_of_error herr]
    exact .refused e
  · rw [he, Store.write_contents heff]
    cases hbreak : (deliver effect.events { h with link.store := effect.store }).2 with
    | none => exact .done _
    | some name =>
      have hevents : effect.events ≠ [] := fun hnil => by
        rw [hnil] at hbreak
        cases hbreak
      have hname := armed_of_deliver hbreak
      rw [Store.done_of_events heff hevents]
      exact .brokenOff hname

theorem armed_of_write {w : Write} {h : Hub} {name : String} (hn : name ∈ (h.write w).2.armed) :
    name ∈ h.armed := by
  obtain ⟨e, -, he⟩ | ⟨effect, -, he⟩ := write_cases w h
  · rwa [he] at hn
  · rw [he] at hn
    have hkept := kept_deliver effect.events { h with link.store := effect.store }
    exact hkept.armed name hn

/-! ## Many writes -/

/-- **Writes in turn lead where they lead on a plain map.** -/
theorem contents_inTurn : ∀ (ws : List Write) (h : Hub),
    (inTurn write ws h).2.store.contents = (inTurn PlainMap.write ws h.store.contents).2
  | [], _ => rfl
  | w :: ws, h => by
    rw [inTurn_cons, inTurn_cons, contents_inTurn ws, contents_write]

/-- **What comes of writes in turn is what comes of them on a plain map**, or they were broken
off. -/
theorem answers_inTurn : ∀ (ws : List Write) (h : Hub),
    List.Forall₂ (Answers h.armed) (inTurn PlainMap.write ws h.store.contents).1
      (inTurn write ws h).1
  | [], _ => .nil
  | w :: ws, h => by
    rw [inTurn_cons, inTurn_cons, ← contents_write]
    refine .cons (answers_write w h) ?_
    exact (answers_inTurn ws (h.write w).2).imp fun _ _ ha => ha.mono fun _ => armed_of_write

/-- **The store behind a hub is this plain map** to whoever reads, lists or writes. -/
structure Mirrors (h : Hub) (m : PlainMap) : Prop where
  /-- Its records are those of the map. -/
  contents : h.store.contents = m
  /-- What is there already is not created again, and nobody notices that it was tried. -/
  refused : ∀ path r, (m path).isSome →
    h.write (.create path r) = (.error (.store (.nodeExists path)), h)
  /-- Children are listed in strictly ascending order, and none twice. -/
  ascending : ∀ path, (h.store.children path).Pairwise (· < ·)
  /-- They are the names without a separator under which there is a node. -/
  listed : ∀ path name, name ∈ h.store.children path ↔
    '/' ∉ name.toList ∧ (m (Path.child path name)).isSome

theorem mirrors_contents (h : Hub) : h.Mirrors h.store.contents where
  contents := rfl
  refused path r hsome := by
    have herr : h.store.effect (.create path r) = .error (.nodeExists path) :=
      if_pos (Store.isSome_contents.mp hsome)
    rw [write, herr]
  ascending := h.store.children_ascending
  listed path name := by
    rw [Store.mem_children, Path.isSegment_iff, Store.isSome_contents]

end Hub

/-! ## Runs -/

variable {z : Limits} {log : List Deed} {h : Hub}

/-- A write that took effect is noted in the log, and any other leaves the records as they are. -/
theorem replay_write (w : Write) (hh : h.store.contents = PlainMap.replay log) :
    (h.write w).2.store.contents
      = PlainMap.replay (log ++ Deed.of w (h.write w).1 (h.write w).2.caches) := by
  have htook := (Hub.answers_write w h).tookEffect_iff
  rw [Hub.contents_write]
  by_cases hdid : WriteError.tookEffect (h.write w).1 = true
  · rw [Deed.of, if_pos hdid, PlainMap.replay_concat, hh]
  · rw [Deed.of, if_neg hdid, List.append_nil, ← hh]
    exact PlainMap.write_of_idle fun hplain => hdid (htook.mpr hplain)

/-- **The records at every point of a course are those of a plain map** to which the log was
written. -/
theorem Course.contents_eq (hc : Course z log h) : h.store.contents = PlainMap.replay log :=
  hc.records (P := fun log nodes => (fun path => nodes[path]?) = PlainMap.replay log)
    (by simp) fun w hh => replay_write w hh

/-- **The store is a plain map throughout a run**, whoever listens, is registered, or breaks off:
so it is at any point, and so it is after any writes that are done in turn from there. -/
theorem Run.plain (hr : Run z log h) (ws : List Write) :
    List.Forall₂ (Answers h.armed) (inTurn PlainMap.write ws (PlainMap.replay log)).1
        (inTurn Hub.write ws h).1 ∧
      (inTurn Hub.write ws h).2.Mirrors (inTurn PlainMap.write ws (PlainMap.replay log)).2 := by
  rw [← hr.course.contents_eq, ← Hub.contents_inTurn]
  exact ⟨Hub.answers_inTurn ws h, Hub.mirrors_contents _⟩

/-- Nodes come to be below a path, below one that begins alike, and further below.  A recorder
breaks off when the node that it watches is written again, and is then armed once more. -/
def brokenOffActs : List Act :=
  [.start 0, .write (.create "/users/bob" (.empty "bob")),
    .write (.create "/users/ann/old" (.empty "old")), .write (.set "/users2/eve" (.empty "eve")),
    .watchData "/users/bob" "log", .arm "log", .write (.set "/users/bob" (.empty "bert")),
    .arm "log"]

/-- The log and the hub after it. -/
def brokenOffRun : List Deed × Hub := Act.performAll brokenOffActs [] sampleHub

/-- What may be written then. -/
def laterWrites : List Write :=
  [.set "/users/bob" (.empty "bo"), .create "/users/bob" (.empty "ben"),
    .create "/users/al" (.empty "al"), .remove "/users2/eve", .remove "/users2/eve"]

/-- The first of the later writes is broken off as well, and all of them lead where they would on a
plain map. -/
theorem plain_brokenOff :
    brokenOffRun.2.heard = [("log", .changed "/users/bob" (.empty "bert"))] ∧
      (inTurn Hub.write laterWrites brokenOffRun.2).1
        = [.error (.brokenOff "log"), .error (.store (.nodeExists "/users/bob")), .ok true,
            .ok true, .ok false] ∧
      (inTurn Hub.write laterWrites brokenOffRun.2).2.store.children "/users/" = ["al", "bob"] ∧
      (inTurn Hub.write laterWrites brokenOffRun.2).2.Mirrors
        (inTurn PlainMap.write laterWrites (PlainMap.replay brokenOffRun.1)).2 := by
  have hrun : Run .boundless brokenOffRun.1 brokenOffRun.2 :=
    Run.performAll (.initial new_sampleHub) fun a _ => a.within_boundless
  exact ⟨by decide +kernel, by decide +kernel, by decide +kernel, (hrun.plain laterWrites).2⟩

end Gatekeeper
