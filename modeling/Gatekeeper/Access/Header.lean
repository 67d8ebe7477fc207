/-!
# Access/Header — the headers of a request

A `Header` has a name, kept in lower case since case does not matter in it, and a value, which is a
list of bytes.  `Header.new?` refuses a name that is empty or holds anything but the characters of a
token, and a value that holds a control other than the tab.

`authorizationValues` are the values of the headers that may carry a token: those of the
`Authorization` headers, in order, except for values with bytes beyond ASCII.
-/

namespace Gatekeeper

/-- A header of a request. -/
structure Header where
  /-- The name, in lower case. -/
  name : String
  /-- The value. -/
  value : List UInt8
  deriving DecidableEq, Repr

/-- Why a header is none. -/
inductive HeaderError
  | invalidName
  | invalidValue
  deriving DecidableEq, Repr

/-- What is said of a header that is none. -/
def HeaderError.message : HeaderError → String
  | .invalidName => "invalid HTTP header name"
  | .invalidValue => "failed to parse header value"

namespace Header

/-- The characters of a token other than letters and digits. -/
def tokenSigns : List Char :=
  ['!', '#', '$', '%', '&', '\x27', '*', '+', '-', '.', '^', '_', '\x60', '|', '~']

/-- Whether a name may hold the character. -/
def isTokenChar (c : Char) : Bool := c.isAlphanum || tokenSigns.contains c

/-- The length that a name must stay below. -/
def maxNameLength : Nat := 65536

/-- The header name that a text stands for. -/
def nameOf? (text : String) : Option String :=
  if text ≠ "" ∧ text.toList.all isTokenChar ∧ text.length < maxNameLength then
    some (String.ofList (text.toList.map Char.toLower))
  else none

/-- Whether a value may hold the byte. -/
def isValueByte (b : UInt8) : Bool := (0x20 ≤ b && b != 0x7F) || b == 0x09

/-- The header of this name and value.  The name is looked at first. -/
def new? (name : String) (value : List UInt8) : Except HeaderError Header :=
  match nameOf? name with
  | none => .error .invalidName
  | some name => if value.all isValueByte then .ok ⟨name, value⟩ else .error .invalidValue

/-- The name of the headers that carry tokens. -/
def authorization : String := "authorization"

/-- A value as a text, if it is ASCII. -/
def text? (value : List UInt8) : Option String :=
  if value.all (· < 0x80) then some (String.ofList (value.map fun b => Char.ofNat b.toNat))
  else none

end Header

/-- The values that may carry a token, in order. -/
def authorizationValues (headers : List Header) : List String :=
  (headers.filter fun h => h.name == Header.authorization).filterMap fun h => Header.text? h.value

end Gatekeeper
