import Gatekeeper.Record.Basic

/-!
# Store/Watch — what happens to nodes, and who is told

An `Event` is one thing that happened at a path.  A `Watcher` is someone who may be told of it: a
recorder, known by its name, or a cache, known by its number.

`Watches` are the registrations of watchers for paths, in the order in which they were made.  A
watcher is registered for a path at most once (`Watches.add`).
-/

namespace Gatekeeper

/-- What happened at a path. -/
inductive Event
  /-- The children of a node are now these. -/
  | children (path : String) (names : List String)
  /-- A node was written. -/
  | changed (path : String) (record : Record)
  /-- A node was deleted. -/
  | deleted (path : String)
  deriving DecidableEq

/-- Where it happened. -/
def Event.path : Event → String
  | .children path _ => path
  | .changed path _ => path
  | .deleted path => path

/-- Someone who may be told of events. -/
inductive Watcher
  /-- A recorder, by its name. -/
  | recorder (name : String)
  /-- A cache, by its number. -/
  | cache (id : Nat)
  deriving DecidableEq, Repr

/-- The registrations of watchers for paths. -/
structure Watches where
  /-- Path and watcher of each registration, oldest first. -/
  entries : List (String × Watcher)
  deriving DecidableEq, Repr

namespace Watches

/-- No registrations. -/
def empty : Watches := ⟨[]⟩

/-- The watchers of a path, longest registered first. -/
def forPath (ws : Watches) (path : String) : List Watcher :=
  ws.entries.filterMap fun e => if e.1 = path then some e.2 else none

/-- The registrations with one more, unless it is there. -/
def add (ws : Watches) (path : String) (w : Watcher) : Watches :=
  if (path, w) ∈ ws.entries then ws else ⟨ws.entries ++ [(path, w)]⟩

/-- The registrations without one. -/
def drop (ws : Watches) (path : String) (w : Watcher) : Watches :=
  ⟨ws.entries.filter (· ≠ (path, w))⟩

/-- How many watchers a path has. -/
def count (ws : Watches) (path : String) : Nat := (ws.forPath path).length

theorem mem_forPath {ws : Watches} {path : String} {w : Watcher} :
    w ∈ ws.forPath path ↔ (path, w) ∈ ws.entries := by
  simp only [forPath, List.mem_filterMap]
  constructor
  · rintro ⟨⟨p, v⟩, hm, h⟩
    by_cases hp : p = path
    · simp [hp] at h
      subst hp; subst h; exact hm
    · simp [hp] at h
  · intro h
    exact ⟨(path, w), h, by simp⟩

@[simp] theorem mem_entries_add {ws : Watches} {path : String} {w : Watcher}
    {e : String × Watcher} : e ∈ (ws.add path w).entries ↔ e ∈ ws.entries ∨ e = (path, w) := by
  rw [add]
  split
  · next h => exact ⟨.inl, fun h' => h'.elim (fun x => x) fun x => x ▸ h⟩
  · simp

@[simp] theorem mem_entries_drop {ws : Watches} {path : String} {w : Watcher}
    {e : String × Watcher} : e ∈ (ws.drop path w).entries ↔ e ∈ ws.entries ∧ e ≠ (path, w) := by
  simp [drop]

/-! ## How often a watcher is registered -/

/-- A watcher is told of a path as often as it is registered for it. -/
theorem count_forPath {ws : Watches} {path : String} {w : Watcher} :
    (ws.forPath path).count w = ws.entries.count (path, w) := by
  rw [forPath]
  induction ws.entries with
  | nil => rfl
  | cons e es ih =>
    obtain ⟨p, v⟩ := e
    by_cases hp : p = path
    · by_cases hv : v = w <;> simp [hp, hv, ih]
    · simp [hp, ih]

theorem count_entries_add (ws : Watches) (path : String) (w : Watcher) (e : String × Watcher) :
    (ws.add path w).entries.count e
      = if e = (path, w) then max 1 (ws.entries.count e) else ws.entries.count e := by
  rw [add]
  split
  · next hin =>
    split
    · next he =>
      subst he
      have := List.count_pos_iff.mpr hin
      omega
    · rfl
  · next hout =>
    rw [List.count_append, List.count_singleton]
    by_cases he : e = (path, w)
    · subst he
      simp [List.count_eq_zero.mpr hout]
    · simp [he, Ne.symm he]

theorem count_entries_drop (ws : Watches) (path : String) (w : Watcher) (e : String × Watcher) :
    (ws.drop path w).entries.count e = if e = (path, w) then 0 else ws.entries.count e := by
  split
  · next he => exact List.count_eq_zero.mpr fun hin => (mem_entries_drop.mp hin).2 he
  · next he => exact List.count_filter (by simpa using he)

end Watches

end Gatekeeper
