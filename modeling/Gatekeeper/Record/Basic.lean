import Gatekeeper.Json.Reader
import Gatekeeper.Json.Value

/-!
# Record/Basic — what a node of the store holds

A `Record` has an id and two families of named fields: single texts and lists of texts.  What they
mean is up to whoever reads them.

Its JSON form is an object with the members `id`, `simpleFields` and `listFields`, the fields of
each family in the order of their names (`Record.toJson`).  It is read from any object that has an
`id`; a family that is missing is empty, and other members are skipped (`Record.ofJson`).
-/

namespace Gatekeeper

open Std (ExtTreeMap)
open Json (Problem Reader Schema Value)

/-- What a node of the store holds. -/
structure Record where
  /-- The record's id. -/
  id : String
  /-- The fields that are a text. -/
  simple : ExtTreeMap String String
  /-- The fields that are a list of texts. -/
  lists : ExtTreeMap String (List String)
  deriving DecidableEq

namespace Record

/-- A record without any fields. -/
def empty (id : String) : Record := ⟨id, ∅, ∅⟩

/-- The record with a text in a field. -/
def withSimple (r : Record) (name value : String) : Record :=
  { r with simple := r.simple.insert name value }

/-- The record with a list in a field. -/
def withList (r : Record) (name : String) (values : List String) : Record :=
  { r with lists := r.lists.insert name values }

/-- The record without the text in a field. -/
def withoutSimple (r : Record) (name : String) : Record :=
  { r with simple := r.simple.erase name }

/-! ## JSON -/

/-- A record while it is read. -/
structure Draft where
  id : Option String := none
  simple : Option (ExtTreeMap String String) := none
  lists : Option (ExtTreeMap String (List String)) := none

/-- The members of the JSON form. -/
def schema : Schema Draft where
  name := "StoreRecord"
  strict := false
  fields := [
    ⟨"id", true, (·.id.isSome), fun t d => do
      return { d with id := some (← Reader.text t) }⟩,
    ⟨"simpleFields", false, (·.simple.isSome), fun t d => do
      return { d with simple := some (← Reader.map Reader.text t) }⟩,
    ⟨"listFields", false, (·.lists.isSome), fun t d => do
      return { d with lists := some (← Reader.map (Reader.list Reader.text) t) }⟩]

/-- The record that a draft has become. -/
def Draft.record (d : Draft) : Record :=
  ⟨d.id.getD "", d.simple.getD ∅, d.lists.getD ∅⟩

/-- Reads a record. -/
def reader : Reader Record := fun t => Draft.record <$> schema.read {} t

/-- The record that a JSON text holds. -/
def ofJson (text : String) : Except Problem Record := Json.decode reader text

/-- The record as a JSON document. -/
def value (r : Record) : Value :=
  .object [("id", .text r.id),
    ("simpleFields", .object (r.simple.toList.map fun (k, v) => (k, .text v))),
    ("listFields", .object (r.lists.toList.map fun (k, vs) => (k, .texts vs)))]

/-- The record as a JSON text. -/
def toJson (r : Record) : String := r.value.render

/-! ## What the fields hold -/

@[simp] theorem simple_withSimple (r : Record) (name value k : String) :
    (r.withSimple name value).simple[k]?
      = if compare name k = .eq then some value else r.simple[k]? := by
  simp [withSimple, ExtTreeMap.getElem?_insert]

@[simp] theorem lists_withList (r : Record) (name k : String) (values : List String) :
    (r.withList name values).lists[k]?
      = if compare name k = .eq then some values else r.lists[k]? := by
  simp [withList, ExtTreeMap.getElem?_insert]

end Record

end Gatekeeper
