import Gatekeeper.Proofs.Hub.Undisturbed

/-!
# Proofs/Admin/Atomic — a task that fails leaves everything as it was

`Admin.Task.atomic`: whatever faults are to come for the calls that a task makes, if it ends in an
error the nodes, the registrations and the caches are as they were, and no listener has been told of
anything.  Tasks that only read leave all that as it was even if they succeed.

A listener that breaks off is no error of the task, which then does not come back to whoever asked
for it; that happens to nobody where no recorder is armed.
-/

namespace Gatekeeper

open Hub

namespace Admin

/-- The task only reads. -/
def Task.Reads : Task → Prop
  | .seek _ _ | .list | .get _ _ => True
  | _ => False

/-- What may come of a task: it touches nothing, it succeeds, or a listener that was armed breaks it
off. -/
inductive Spared (h : Hub) : Except AdminError Unit × Hub → Prop
  | untouched {r : Except AdminError Unit} {h' : Hub} (hu : h.Untouched h') : Spared h (r, h')
  | done {h' : Hub} : Spared h (.ok (), h')
  | brokenOff {name : String} {h' : Hub} (hn : name ∈ h.armed) :
    Spared h (.error (.brokenOff name), h')

variable {h : Hub}

/-- What comes of a task that ends with a write. -/
theorem spared_submit {h₀ g : Hub} {w : Write} {result : Except WriteError Bool}
    {r : Except AdminError Unit} (hu : h.Untouched h₀) (hsub : h₀.submit w = (result, g))
    (hr : r = .ok () ∨ WriteError.tookEffect result = false ∨
      ∃ e, result = .error e ∧ r = .error (.ofWrite e)) : Spared h (r, g) := by
  obtain rfl | hno | ⟨e, rfl, rfl⟩ := hr
  · exact .done
  · exact .untouched (hu.trans (untouched_of_submit hsub hno))
  · cases e with
    | store e => exact .untouched (hu.trans (untouched_of_submit hsub rfl))
    | brokenOff name => exact .brokenOff (hu.armed ▸ armed_of_submit hsub)

theorem spared_add (a : Admin) (c : Credential) (h : Hub) : Spared h (outcome (a.add c h)) := by
  rw [add]
  split
  · split
    · exact .untouched (.refl h)
    · split
      · next hsub => exact spared_submit (.refl h) hsub (.inl rfl)
      · next hsub => exact spared_submit (.refl h) hsub (.inr (.inl rfl))
      · next hsub => exact spared_submit (.refl h) hsub (.inr (.inr ⟨_, rfl, rfl⟩))
  · exact .untouched (.refl h)

theorem spared_update (a : Admin) (username : String) (component : Component) (c : Credential)
    (h : Hub) : Spared h (outcome (a.update username component c h)) := by
  have hget : h.Untouched (h.exists? (a.path (addressed username component))).2 :=
    untouched_get h _
  rw [update]
  split
  · split
    · next heq =>
      rw [heq] at hget
      exact .untouched hget
    · next heq =>
      rw [heq] at hget
      exact .untouched hget
    · next heq =>
      rw [heq] at hget
      split
      · exact .untouched hget
      · split
        · next hsub => exact spared_submit hget hsub (.inl rfl)
        · next hsub => exact spared_submit hget hsub (.inr (.inr ⟨_, rfl, rfl⟩))
  · exact .untouched (.refl h)

theorem spared_delete (a : Admin) (username : String) (component : Component) (h : Hub) :
    Spared h (outcome (a.delete username component h)) := by
  rw [delete]
  split
  · next hsub => exact spared_submit (.refl h) hsub (.inl rfl)
  · next hsub => exact spared_submit (.refl h) hsub (.inr (.inl rfl))
  · next hsub => exact spared_submit (.refl h) hsub (.inr (.inr ⟨_, rfl, rfl⟩))

/-- A task that only reads touches nothing, as long as no race has anything to write. -/
theorem Task.Reads.untouched {t : Task} (ht : t.Reads) (a : Admin)
    (hbefore : h.Undisturbed .beforeList) (hafter : h.Undisturbed .afterList) :
    h.Untouched (t.run a h).2 := by
  cases t with
  | seek username component => exact untouched_get h _
  | list =>
    have hlist := (list_undisturbed hbefore hafter a.parent).2.untouched
    exact ⟨hlist.1, hlist.2, hlist.3, hlist.4⟩
  | get username component =>
    have hget := untouched_get h (a.path (addressed username component))
    rw [Task.run, Admin.get]
    split <;> next heq =>
      rw [heq] at hget
      exact hget
  | _ => exact ht.elim

theorem Task.spared (a : Admin) (t : Task) (hbefore : h.Undisturbed .beforeList)
    (hafter : h.Undisturbed .afterList) : Spared h (t.run a h) := by
  have hreads : t.Reads → Spared h (t.run a h) := fun ht =>
    .untouched (ht.untouched a hbefore hafter)
  cases t with
  | add c => exact spared_add a c h
  | addForm f =>
    rw [Task.run, Admin.addForm]
    cases f.credential with
    | error e => exact .untouched (.refl h)
    | ok c => exact spared_add a c h
  | update username component c => exact spared_update a username component c h
  | delete username component => exact spared_delete a username component h
  | _ => exact hreads trivial

/-- **A task that fails touches nothing, and neither does one that only reads**, whatever faults are
to come, as long as no race has anything to write in the middle of it.  The one other way in which a
task may end is that a listener who was armed breaks its write off. -/
theorem Task.atomic (a : Admin) (t : Task) (hbefore : h.Undisturbed .beforeList)
    (hafter : h.Undisturbed .afterList) :
    (∀ e, (t.run a h).1 = .error e →
        h.Untouched (t.run a h).2 ∨ ∃ name ∈ h.armed, e = .brokenOff name) ∧
      (t.Reads → h.Untouched (t.run a h).2) := by
  refine ⟨fun e he => ?_, fun ht => ht.untouched a hbefore hafter⟩
  have hspared := t.spared a hbefore hafter
  generalize t.run a h = p at he hspared
  cases hspared with
  | untouched hu => exact .inl hu
  | done => cases he
  | brokenOff hn =>
    cases he
    exact .inr ⟨_, hn, rfl⟩

end Admin

/-! ## A task that fails late -/

/-- A credential is added to a store with a cache that is ready, someone is registered for its
record, and the next writing of a node is to fail. -/
def spoiltActs : List Act :=
  [.start 0, .administer sampleAdmin (.addForm (sampleForm "pw")),
    .watchData "/users/ann_BROKER" "eve", .fault .set (.fails .poisoned)]

/-- The hub after it. -/
def spoiltHub : Hub := (Act.performAll spoiltActs [] sampleHub).2

/-- The same user with another secret. -/
def otherSecret : Credential := ⟨"ann", "wp", .broker, .user, ∅, ∅⟩

/-- The credential is there and its secret can be hidden, but it is not replaced, and neither the
cache nor whoever is registered hears of it. -/
theorem atomic_spoilt :
    ((Admin.Task.update "ann" .broker otherSecret).run sampleAdmin spoiltHub).1
        = .error (.store .poisoned) ∧
      spoiltHub.Untouched
        ((Admin.Task.update "ann" .broker otherSecret).run sampleAdmin spoiltHub).2 := by
  have herr : ((Admin.Task.update "ann" .broker otherSecret).run sampleAdmin spoiltHub).1
      = .error (.store .poisoned) := by
    decide +kernel
  have hraces : ∀ point, spoiltHub.Undisturbed point := fun point =>
    .of_nil (by cases point <;> rfl)
  obtain hu | ⟨name, -, hname⟩ := (Admin.Task.atomic sampleAdmin
    (.update "ann" .broker otherSecret) (hraces _) (hraces _)).1 _ herr
  · exact ⟨herr, hu⟩
  · cases hname

end Gatekeeper
