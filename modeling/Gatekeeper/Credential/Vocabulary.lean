import Gatekeeper.Text.Blank
import Gatekeeper.Text.LetterCase

/-!
# Credential/Vocabulary — components, roles, operations and the words for them

A credential belongs to a `Component` and has a `Role`; a request may name an `Operation`.  Each of
the three is a small closed set whose members have one word each (`Vocabulary`).  A text is read as
a member (`Vocabulary.ofText`) when, blanks at its ends and ASCII case aside, it is the member's
word; `ofText_word` says that a member's own word reads back.
-/

namespace Gatekeeper

open Text (trimmed sameLetters)

/-- The part of a cluster that a credential is good for. -/
inductive Component
  | controller
  | broker
  deriving DecidableEq, Repr, Inhabited

/-- What the holder of a credential is to its component. -/
inductive Role
  | admin
  | user
  deriving DecidableEq, Repr, Inhabited

/-- What can be done to a table. -/
inductive Operation
  | create
  | read
  | update
  | delete
  deriving DecidableEq, Repr, Inhabited

/-! ## Words -/

/-- A closed set of values with a word for each. -/
class Vocabulary (α : Type) where
  /-- What the values are called together. -/
  kind : String
  /-- The values, in the order in which a text is tried against them. -/
  all : List α
  /-- The word for a value. -/
  word : α → String
  /-- The name of a value where values are listed for people. -/
  label : α → String

/-- A text that is no word of its vocabulary. -/
structure UnknownWord where
  /-- What the text was to name. -/
  kind : String
  /-- The text as it was given. -/
  text : String
  deriving DecidableEq, Repr

/-- What is said of a text that is no word. -/
def UnknownWord.message (e : UnknownWord) : String :=
  s!"unknown {e.kind} '{e.text}'"

namespace Vocabulary

/-- The value that a text names, blanks at its ends and ASCII case aside. -/
def ofText (α : Type) [Vocabulary α] (text : String) : Except UnknownWord α :=
  match (all : List α).find? fun a => sameLetters (trimmed text) (word a) with
  | some a => .ok a
  | none => .error ⟨kind α, text⟩

end Vocabulary

instance : Vocabulary Component where
  kind := "component"
  all := [.controller, .broker]
  word
    | .controller => "CONTROLLER"
    | .broker => "BROKER"
  label
    | .controller => "Controller"
    | .broker => "Broker"

instance : Vocabulary Role where
  kind := "role"
  all := [.admin, .user]
  word
    | .admin => "ADMIN"
    | .user => "USER"
  label
    | .admin => "Admin"
    | .user => "User"

instance : Vocabulary Operation where
  kind := "access type"
  all := [.create, .read, .update, .delete]
  word
    | .create => "create"
    | .read => "read"
    | .update => "update"
    | .delete => "delete"
  label
    | .create => "Create"
    | .read => "Read"
    | .update => "Update"
    | .delete => "Delete"

/-- The word for a component. -/
abbrev Component.word (c : Component) : String := Vocabulary.word c

/-- The word for a role. -/
abbrev Role.word (r : Role) : String := Vocabulary.word r

/-- The word for an operation. -/
abbrev Operation.word (o : Operation) : String := Vocabulary.word o

/-- The component that a text names. -/
def Component.ofText (text : String) : Except UnknownWord Component :=
  Vocabulary.ofText Component text

/-- The role that a text names. -/
def Role.ofText (text : String) : Except UnknownWord Role :=
  Vocabulary.ofText Role text

/-- The operation that a text names. -/
def Operation.ofText (text : String) : Except UnknownWord Operation :=
  Vocabulary.ofText Operation text

/-- A component's word names it. -/
theorem Component.ofText_word (c : Component) : Component.ofText c.word = .ok c := by
  cases c <;> rfl

/-- A role's word names it. -/
theorem Role.ofText_word (r : Role) : Role.ofText r.word = .ok r := by
  cases r <;> rfl

end Gatekeeper
