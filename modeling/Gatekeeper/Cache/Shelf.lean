import Std.Data.ExtTreeMap

/-!
# Cache/Shelf — entries, and all that was ever done to them

A `Shelf` is a map that keeps its history: every `Edit` of it, also one that changed nothing.  The
history makes the entries (`Shelf.entries_eq`), so two shelves are equal if the same was done to
them, in the same order, and they are arranged alike (`Shelf.ext_edits`).

In what order the entries are listed is left open.  An `Arrangement` may order them as it likes, and
may take the whole history into account; what it lists are the entries, each of them once.  So
nothing that holds of a shelf holds because of the order of its keys, and equal entries alone do not
make equal lists.
-/

namespace Gatekeeper

open Std (ExtTreeMap TransOrd)

/-- One thing done to entries. -/
inductive Edit (κ ν : Type)
  /-- A key has this value from now on. -/
  | insert (key : κ) (value : ν)
  /-- A key has no value from now on. -/
  | erase (key : κ)

variable {κ ν : Type} [Ord κ] [TransOrd κ]

/-- The entries after an edit. -/
def Edit.apply : Edit κ ν → ExtTreeMap κ ν → ExtTreeMap κ ν
  | .insert key value, entries => entries.insert key value
  | .erase key, entries => entries.erase key

/-- An order in which entries are listed, in the light of all edits that led to them, the newest
first. -/
structure Arrangement (κ ν : Type) where
  /-- The entries, in this order. -/
  arrange : List (Edit κ ν) → List (κ × ν) → List (κ × ν)
  /-- Every entry is listed, as often as it is there. -/
  perm : ∀ edits entries, (arrange edits entries).Perm entries

/-- The order in which the entries are given. -/
def Arrangement.plain {κ ν : Type} : Arrangement κ ν := ⟨fun _ entries => entries, fun _ _ => .refl _⟩

/-- A map with its history, and the order in which it is listed. -/
structure Shelf (κ ν : Type) [Ord κ] [TransOrd κ] where
  /-- The value of each key. -/
  entries : ExtTreeMap κ ν
  /-- What was ever done to the entries, the newest first. -/
  edits : List (Edit κ ν)
  /-- The order in which they are listed. -/
  order : Arrangement κ ν
  /-- The entries are what the edits made. -/
  entries_eq : entries = edits.foldr Edit.apply ∅

namespace Shelf

/-- A shelf to which nothing has been done. -/
def empty (order : Arrangement κ ν) : Shelf κ ν := ⟨∅, [], order, rfl⟩

/-- The shelf after one more edit. -/
def edit (s : Shelf κ ν) (e : Edit κ ν) : Shelf κ ν where
  entries := e.apply s.entries
  edits := e :: s.edits
  order := s.order
  entries_eq := congrArg e.apply s.entries_eq

/-- The entries, as they are listed. -/
def list (s : Shelf κ ν) : List (κ × ν) := s.order.arrange s.edits s.entries.toList

theorem perm_list (s : Shelf κ ν) : s.list.Perm s.entries.toList := s.order.perm _ _

/-- **Shelves to which the same was done are equal**, if they are arranged alike. -/
theorem ext_edits {s t : Shelf κ ν} (hedits : s.edits = t.edits) (horder : s.order = t.order) :
    s = t := by
  obtain ⟨entries, edits, order, hs⟩ := s
  obtain ⟨entries', edits', order', ht⟩ := t
  obtain rfl : edits = edits' := hedits
  obtain rfl : order = order' := horder
  obtain rfl : entries = entries' := hs.trans ht.symm
  rfl

end Shelf

end Gatekeeper
