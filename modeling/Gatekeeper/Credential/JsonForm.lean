import Gatekeeper.Credential.Identity
import Gatekeeper.Json.Reader
import Gatekeeper.Json.Value

/-!
# Credential/JsonForm — words and identities in JSON

A component, a role or an operation stands in JSON as its word, and an identity as its text; both
are strings.  A word is read as it is anywhere else, blanks at its ends and ASCII case aside
(`Vocabulary.ofJson`), and every string is an identity (`Identity.ofJson`).
-/

namespace Gatekeeper

open Json (Problem Reader Value)

namespace Vocabulary

/-- Reads a value by its word. -/
def reader (α : Type) [Vocabulary α] : Reader α := fun t => do
  let text ← Reader.text t
  (ofText α text).mapError fun e => .refused e.message

/-- The value whose word a JSON text holds. -/
def ofJson (α : Type) [Vocabulary α] (text : String) : Except Problem α :=
  Json.decode (reader α) text

/-- The word for a value as a JSON text. -/
def toJson {α : Type} [Vocabulary α] (a : α) : String := (Value.text (word a)).render

end Vocabulary

namespace Identity

/-- The identity that a JSON text holds. -/
def ofJson (text : String) : Except Problem Identity :=
  Identity.mk <$> Json.decode Reader.text text

/-- The identity as a JSON text. -/
def toJson (i : Identity) : String := (Value.text i.text).render

end Identity

end Gatekeeper
