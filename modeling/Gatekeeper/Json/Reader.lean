import Gatekeeper.Json.Tree
import Gatekeeper.Text.Quoted
import Std.Data.ExtTreeMap

/-!
# Json/Reader — values of known shape out of documents

A `Reader` takes a value of its type out of a tree, walking it from left to right, and fails with
the first `Problem` it meets: the document breaks off (`malformed`), or it is a document of the
wrong shape.  There are readers for texts, lists, maps, and values that may be null.

A structure is described by a `Schema`: its members in order, each with a reader that fills in a
draft.  It is read from an object, whose members may stand in any order, or from a list of its
members' values.  What is missing is only noticed at the end, and members that the schema does not
name are skipped unless it is strict.

`decode` reads a whole text; what comes after the value is looked at last.
-/

namespace Gatekeeper.Json

open Std (ExtTreeMap)

/-! ## Problems -/

/-- What stands where something else was expected. -/
inductive Found
  | null
  | bool (b : Bool)
  | integer (i : Int)
  /-- A double, by its text. -/
  | double (digits : String)
  | text (s : String)
  | list
  | object
  deriving DecidableEq, Repr

/-- What is wrong with a document. -/
inductive Problem
  /-- It breaks off. -/
  | malformed
  /-- A value is of the wrong kind. -/
  | wrongKind (found : Found) (expected : String)
  /-- A list of member values ends too early. -/
  | tooShort (length : Nat) (expected : String)
  /-- A member is missing. -/
  | missing (name : String)
  /-- A member is there twice. -/
  | repeated (name : String)
  /-- A member has a name that is not one of the known ones. -/
  | unknown (name : String) (known : List String)
  /-- A value is refused for what it says. -/
  | refused (reason : String)
  deriving DecidableEq, Repr

/-- Doubles are positional below `10 ^ 16` and down to `10 ^ -5`; a positive exponent has its
sign. -/
def doubleLayout : Decimal.Layout := ⟨-5, 15, "e+", "e-"⟩

/-- The words for what was found. -/
def Found.describe : Found → String
  | .null => "null"
  | .bool b => s!"boolean `{b}`"
  | .integer i => s!"integer `{i}`"
  | .double digits => s!"floating point `{digits}`"
  | .text s => "string " ++ Text.quoted s
  | .list => "sequence"
  | .object => "map"

/-- A name between backticks. -/
def ticked (name : String) : String := s!"`{name}`"

/-- What is said of a problem with the shape of a document; nothing of one that breaks off. -/
def Problem.message : Problem → String
  | .malformed => ""
  | .wrongKind found expected => s!"invalid type: {found.describe}, expected {expected}"
  | .tooShort length expected => s!"invalid length {length}, expected {expected}"
  | .missing name => s!"missing field {ticked name}"
  | .repeated name => s!"duplicate field {ticked name}"
  | .unknown name known =>
    s!"unknown field {ticked name}, expected one of " ++ ", ".intercalate (known.map ticked)
  | .refused reason => reason

/-! ## Readers -/

/-- Takes a value out of a tree. -/
abbrev Reader (α : Type) := Tree → Except Problem α

namespace Reader

/-- The problem with a tree that is not what was expected. -/
def mismatch (expected : String) : Tree → Problem
  | .null => .wrongKind .null expected
  | .bool b => .wrongKind (.bool b) expected
  | .num n =>
    match n.number? with
    | some (.integer i) => .wrongKind (.integer i) expected
    | some (.double x) => .wrongKind (.double (doubleLayout.writeFloat x)) expected
    | none => .malformed
  | .text (some s) => .wrongKind (.text s) expected
  | .text none => .malformed
  | .list _ _ => .wrongKind .list expected
  | .object _ _ => .wrongKind .object expected
  | .broken => .malformed

/-- Fails unless what was open has been closed. -/
def whenClosed {α : Type} (closed : Bool) (a : α) : Except Problem α :=
  if closed then .ok a else .error .malformed

/-- A text. -/
def text : Reader String
  | .text (some s) => .ok s
  | t => .error (mismatch "a string" t)

/-- A value of which nothing is kept. -/
def ignored : Reader Unit := fun t => whenClosed t.intact ()

/-- A list. -/
def list {α : Type} (item : Reader α) : Reader (List α)
  | .list items closed => do
    let values ← items.mapM item
    whenClosed closed values
  | t => .error (mismatch "a sequence" t)

/-- Null, or a value. -/
def optional {α : Type} (value : Reader α) : Reader (Option α)
  | .null => .ok none
  | t => some <$> value t

/-- The members of a map one after another; a key that comes again replaces what it had. -/
def mapMembers {α : Type} (value : Reader α) (m : ExtTreeMap String α) :
    List (Option String × Tree) → Except Problem (ExtTreeMap String α)
  | [] => .ok m
  | (none, _) :: _ => .error .malformed
  | (some key, t) :: rest => do
    let a ← value t
    mapMembers value (m.insert key a) rest

/-- A map from texts. -/
def map {α : Type} (value : Reader α) : Reader (ExtTreeMap String α)
  | .object members closed => do
    let m ← mapMembers value ∅ members
    whenClosed closed m
  | t => .error (mismatch "a map" t)

end Reader

/-! ## Structures -/

/-- One member of a structure, with `δ` for what is known of the structure while it is read. -/
structure Field (δ : Type) where
  /-- The member's name. -/
  name : String
  /-- Whether the structure cannot do without it. -/
  required : Bool
  /-- Whether it has been read. -/
  present : δ → Bool
  /-- Reads it. -/
  fill : Tree → δ → Except Problem δ

/-- The members of a structure. -/
structure Schema (δ : Type) where
  /-- What the structure is called. -/
  name : String
  /-- Its members, in order. -/
  fields : List (Field δ)
  /-- Whether other members are refused rather than skipped. -/
  strict : Bool

namespace Schema

variable {δ : Type}

/-- The first required member that has not been read is missing. -/
def check (s : Schema δ) (d : δ) : Except Problem δ :=
  match s.fields.find? fun f => f.required && !f.present d with
  | some f => .error (.missing f.name)
  | none => .ok d

/-- Reads one member of an object, given by its name. -/
def member (s : Schema δ) (name : String) (t : Tree) (d : δ) : Except Problem δ :=
  match s.fields.find? fun f => f.name == name with
  | some f => if f.present d then .error (.repeated name) else f.fill t d
  | none =>
    if s.strict then .error (.unknown name (s.fields.map (·.name)))
    else do
      Reader.ignored t
      .ok d

/-- Reads the members of an object. -/
def members (s : Schema δ) : List (Option String × Tree) → δ → Except Problem δ
  | [], d => .ok d
  | (none, _) :: _, _ => .error .malformed
  | (some name, t) :: rest, d => do
    let d ← s.member name t d
    s.members rest d

/-- What a list of the members' values is called. -/
def expectedElements (s : Schema δ) : String :=
  s!"struct {s.name} with {s.fields.length} elements"

/-- Reads the members from a list of their values, of which `count` have been read. -/
def elements (s : Schema δ) (closed : Bool) (count : Nat) :
    List (Field δ) → List Tree → δ → Except Problem δ
  | [], [], d => Reader.whenClosed closed d
  | [], _ :: _, _ => .error .malformed
  | f :: fs, [], d => do
    Reader.whenClosed closed ()
    if f.required then .error (.tooShort count s.expectedElements)
    else s.elements closed count fs [] d
  | f :: fs, t :: ts, d => do
    let d ← f.fill t d
    s.elements closed (count + 1) fs ts d

/-- Reads a structure, starting from a draft of which nothing has been read. -/
def read (s : Schema δ) (blank : δ) : Reader δ
  | .object ms closed => do
    let d ← s.members ms blank
    let d ← Reader.whenClosed closed d
    s.check d
  | .list items closed => s.elements closed 0 s.fields items blank
  | t => .error (Reader.mismatch s!"struct {s.name}" t)

end Schema

/-! ## Whole texts -/

/-- Reads a text that holds one value and nothing else. -/
def decode {α : Type} (reader : Reader α) (s : String) : Except Problem α := do
  let a ← reader (Tree.ofText s).1
  if (Tree.ofText s).2 then .error .malformed else .ok a

end Gatekeeper.Json
