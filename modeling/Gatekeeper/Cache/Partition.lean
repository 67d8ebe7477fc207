import Gatekeeper.Cache.Shelf
import Gatekeeper.Credential.Vocabulary

/-!
# Cache/Partition — one map for each component

A `Partition` keeps the entries of the two components apart, each on a shelf of its own: what is done
at one component is not seen at the other (`get?_insert_of_ne`, `get?_erase_of_ne`), and at the one it
is what the map does (`get?_insert_self`, `get?_erase_self`).
-/

namespace Gatekeeper

open Std (ExtTreeMap TransOrd)

/-- A map for each component. -/
structure Partition (κ ν : Type) [Ord κ] [TransOrd κ] where
  /-- The entries of the controllers. -/
  controllers : Shelf κ ν
  /-- The entries of the brokers. -/
  brokers : Shelf κ ν

namespace Partition

variable {κ ν : Type} [Ord κ] [TransOrd κ]

/-- No entries, and the order in which those of each component are going to be listed. -/
def blank (order : Component → Arrangement κ ν) : Partition κ ν :=
  ⟨.empty (order .controller), .empty (order .broker)⟩

/-- No entries. -/
def empty : Partition κ ν := blank fun _ => .plain

/-- The shelf of a component. -/
def shelf (p : Partition κ ν) : Component → Shelf κ ν
  | .controller => p.controllers
  | .broker => p.brokers

/-- The entries of a component. -/
def part (p : Partition κ ν) (c : Component) : ExtTreeMap κ ν := (p.shelf c).entries

/-- The partition with one more edit at a component. -/
def edit (p : Partition κ ν) (e : Edit κ ν) : Component → Partition κ ν
  | .controller => { p with controllers := p.controllers.edit e }
  | .broker => { p with brokers := p.brokers.edit e }

/-- The value of a key at a component. -/
def get? (p : Partition κ ν) (c : Component) (key : κ) : Option ν := (p.part c)[key]?

/-- The partition with a value for a key at a component. -/
def insert (p : Partition κ ν) (c : Component) (key : κ) (value : ν) : Partition κ ν :=
  p.edit (.insert key value) c

/-- The partition without a key at a component. -/
def erase (p : Partition κ ν) (c : Component) (key : κ) : Partition κ ν := p.edit (.erase key) c

/-- The values at a component, as its shelf lists them. -/
def values (p : Partition κ ν) (c : Component) : List ν := (p.shelf c).list.map Prod.snd

/-- The keys at a component, as its shelf lists them. -/
def keys (p : Partition κ ν) (c : Component) : List κ := (p.shelf c).list.map Prod.fst

/-- How many entries a component has. -/
def size (p : Partition κ ν) (c : Component) : Nat := (p.part c).size

/-! ## What the operations do to each component -/

theorem shelf_blank (order : Component → Arrangement κ ν) (c : Component) :
    (blank order).shelf c = .empty (order c) := by
  cases c <;> rfl

theorem shelf_edit (p : Partition κ ν) (e : Edit κ ν) (c d : Component) :
    (p.edit e c).shelf d = if d = c then (p.shelf d).edit e else p.shelf d := by
  cases c <;> cases d <;> rfl

theorem edits_edit (p : Partition κ ν) (e : Edit κ ν) (c d : Component) :
    ((p.edit e c).shelf d).edits
      = if d = c then e :: (p.shelf d).edits else (p.shelf d).edits := by
  cases c <;> cases d <;> rfl

/-- The order is there from the beginning. -/
@[simp] theorem order_edit (p : Partition κ ν) (e : Edit κ ν) (c d : Component) :
    ((p.edit e c).shelf d).order = (p.shelf d).order := by
  cases c <;> cases d <;> rfl

@[simp] theorem get?_insert_self [Std.LawfulEqOrd κ] [DecidableEq κ] (p : Partition κ ν)
    (c : Component) (key k : κ) (value : ν) :
    (p.insert c key value).get? c k = if key = k then some value else p.get? c k := by
  simp [get?, part, insert, shelf_edit, Shelf.edit, Edit.apply, ExtTreeMap.getElem?_insert]

@[simp] theorem get?_erase_self [Std.LawfulEqOrd κ] [DecidableEq κ] (p : Partition κ ν)
    (c : Component) (key k : κ) :
    (p.erase c key).get? c k = if key = k then none else p.get? c k := by
  simp [get?, part, erase, shelf_edit, Shelf.edit, Edit.apply, ExtTreeMap.getElem?_erase]

theorem get?_insert_of_ne {p : Partition κ ν} {c d : Component} (h : d ≠ c) (key k : κ)
    (value : ν) : (p.insert c key value).get? d k = p.get? d k := by
  simp [get?, part, insert, shelf_edit, h]

theorem get?_erase_of_ne {p : Partition κ ν} {c d : Component} (h : d ≠ c) (key k : κ) :
    (p.erase c key).get? d k = p.get? d k := by
  simp [get?, part, erase, shelf_edit, h]

end Partition

end Gatekeeper
