import Gatekeeper.Json.Tree

/-!
# Json/Value — documents to be written

A `Value` is a document that holds texts, lists and objects.  `Value.render` writes it without any
blanks.  In a string the quote, the backslash and the control characters are escaped, those with a
letter of their own by that letter; everything else stands as it is.

`Value.tree` is the same document as it is read.
-/

namespace Gatekeeper.Json

/-- A document to be written. -/
inductive Value
  | text (s : String)
  | list (items : List Value)
  | object (members : List (String × Value))

/-- One character inside a string. -/
def escapeChar (c : Char) : List Char :=
  if c = '"' then ['\\', '"']
  else if c = '\\' then ['\\', '\\']
  else if c = '\x08' then ['\\', 'b']
  else if c = '\x0c' then ['\\', 'f']
  else if c = '\n' then ['\\', 'n']
  else if c = '\r' then ['\\', 'r']
  else if c = '\t' then ['\\', 't']
  else if c.toNat < 0x20 then
    ['\\', 'u', '0', '0', Nat.digitChar (c.toNat / 16), Nat.digitChar (c.toNat % 16)]
  else [c]

/-- A text as a string. -/
def renderText (s : String) : List Char :=
  '"' :: s.toList.flatMap escapeChar ++ ['"']

namespace Value

mutual

/-- The characters of a document. -/
def chars : Value → List Char
  | text s => renderText s
  | list items => '[' :: itemChars items ++ [']']
  | object members => '\x7b' :: memberChars members ++ ['\x7d']

/-- The characters of the items of a list, with commas between them. -/
def itemChars : List Value → List Char
  | [] => []
  | [v] => v.chars
  | v :: w :: vs => v.chars ++ ',' :: itemChars (w :: vs)

/-- The characters of the members of an object, with commas between them. -/
def memberChars : List (String × Value) → List Char
  | [] => []
  | [(k, v)] => renderText k ++ ':' :: v.chars
  | (k, v) :: m :: ms => renderText k ++ ':' :: v.chars ++ ',' :: memberChars (m :: ms)

end

/-- The text of a document. -/
def render (v : Value) : String := String.ofList v.chars

mutual

/-- The document as it is read. -/
def tree : Value → Tree
  | text s => .text (some s)
  | list items => .list (itemTrees items) true
  | object members => .object (memberTrees members) true

/-- The items of a list as they are read. -/
def itemTrees : List Value → List Tree
  | [] => []
  | v :: vs => v.tree :: itemTrees vs

/-- The members of an object as they are read. -/
def memberTrees : List (String × Value) → List (Option String × Tree)
  | [] => []
  | (k, v) :: ms => (some k, v.tree) :: memberTrees ms

end

/-- A list of texts. -/
def texts (ss : List String) : Value := .list (ss.map .text)

end Value

end Gatekeeper.Json
