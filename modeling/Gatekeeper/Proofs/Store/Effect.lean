import Gatekeeper.Store.Basic

/-!
# Proofs/Store/Effect — the four things that a write may come to

A write puts a record in place, deletes a node, has nothing to do, or only delivers an event
(`Store.effect_cases`).  Whether a record was created or written over shows in its events alone
(`Store.putEvents`).
-/

namespace Gatekeeper

/-- The node that a write is to. -/
def Write.path? : Write → Option String
  | .create path _ | .set path _ | .remove path => some path
  | .notify _ => none

namespace Store

/-- The events of writing a record. -/
def putEvents (s : Store) (path : String) (r : Record) : List Event :=
  (if path ∈ s.nodes then [] else (s.put path r).siblingEvent path) ++ [.changed path r]

/-- The events of a deletion. -/
def deleteEvents (s : Store) (path : String) : List Event :=
  .deleted path :: (s.delete path).siblingEvent path

theorem mem_siblingEvent {s : Store} {path : String} {e : Event} :
    e ∈ s.siblingEvent path
      ↔ ∃ parent, Path.parent? path = some parent ∧ e = .children parent (s.children parent) := by
  rw [siblingEvent]
  split
  · next parent hparent => simp [hparent]
  · next hnone => simp [hnone]

/-- **What a write that the store does not refuse comes to.** -/
theorem effect_cases {s : Store} {w : Write} {effect : Effect} (h : s.effect w = .ok effect) :
    (∃ path r, (w = .create path r ∨ w = .set path r)
        ∧ effect = ⟨s.put path r, s.putEvents path r, true⟩) ∨
      (∃ path, w = .remove path ∧ effect = ⟨s.delete path, s.deleteEvents path, true⟩) ∨
      (∃ path, w = .remove path ∧ path ∉ s.nodes ∧ effect = ⟨s, [], false⟩) ∨
      ∃ e, w = .notify e ∧ effect = ⟨s, [e], true⟩ := by
  cases w with
  | create path r =>
    rw [Store.effect] at h
    split at h
    · cases h
    · next hout =>
      cases h
      exact .inl ⟨path, r, .inl rfl, by rw [putEvents, if_neg hout]⟩
  | set path r =>
    cases h
    exact .inl ⟨path, r, .inr rfl, rfl⟩
  | remove path =>
    rw [Store.effect] at h
    split at h
    · cases h
      exact .inr (.inl ⟨path, rfl, rfl⟩)
    · next hout =>
      cases h
      exact .inr (.inr (.inl ⟨path, rfl, hout, rfl⟩))
  | notify e =>
    cases h
    exact .inr (.inr (.inr ⟨e, rfl, rfl⟩))

/-- A write does not touch the registrations. -/
theorem effect_store {s : Store} {w : Write} {effect : Effect} (h : s.effect w = .ok effect) :
    effect.store = { s with nodes := effect.store.nodes } := by
  obtain ⟨_, _, -, rfl⟩ | ⟨_, -, rfl⟩ | ⟨_, -, -, rfl⟩ | ⟨_, -, rfl⟩ := effect_cases h <;> rfl

/-- Writing a record always does something. -/
theorem done_of_put {s : Store} {w : Write} {path : String} {r : Record} {effect : Effect}
    (hw : w = .create path r ∨ w = .set path r) (h : s.effect w = .ok effect) :
    effect.done = true := by
  obtain ⟨_, _, -, rfl⟩ | ⟨_, rfl, -⟩ | ⟨_, rfl, -⟩ | ⟨_, rfl, -⟩ := effect_cases h
  · rfl
  all_goals simp at hw

/-! ## The store after a write -/

/-- The store after a write, whether or not there was anything to do. -/
def after (s : Store) (w : Write) : Store :=
  match s.effect w with
  | .ok effect => effect.store
  | .error _ => s

theorem after_of_effect {s : Store} {w : Write} {effect : Effect} (h : s.effect w = .ok effect) :
    s.after w = effect.store := by
  rw [after, h]

theorem after_of_error {s : Store} {w : Write} {e : StoreError} (h : s.effect w = .error e) :
    s.after w = s := by
  rw [after, h]

/-- What nodes there are after a write depends on the nodes alone. -/
theorem after_nodes_congr {s t : Store} (h : s.nodes = t.nodes) (w : Write) :
    (s.after w).nodes = (t.after w).nodes := by
  cases w with
  | create path r => by_cases hin : path ∈ t.nodes <;> simp [after, effect, h, hin, put]
  | set path r => simp [after, effect, h, put]
  | remove path => by_cases hin : path ∈ t.nodes <;> simp [after, effect, h, hin, delete]
  | notify e => exact h

/-- A write brings no node about but its own, and takes no other away. -/
theorem mem_after_iff {s : Store} {w : Write} {path : String} (h : w.path? ≠ some path) :
    path ∈ (s.after w).nodes ↔ path ∈ s.nodes := by
  cases w with
  | create q r =>
    have hq : q ≠ path := fun heq => h (congrArg some heq)
    by_cases hin : q ∈ s.nodes <;> simp [after, effect, put, hin, hq]
  | set q r =>
    have hq : q ≠ path := fun heq => h (congrArg some heq)
    simp [after, effect, put, hq]
  | remove q =>
    have hq : q ≠ path := fun heq => h (congrArg some heq)
    by_cases hin : q ∈ s.nodes <;> simp [after, effect, delete, hin, hq]
  | notify e => rfl

end Store

end Gatekeeper
