import Gatekeeper.Json.Token

/-!
# Json/Tree — a document as far as it can be read

Documents are read from left to right and the first thing wrong with one decides.  So a document
that breaks off is still a `Tree`, up to the place where it does: a list or an object that was never
closed says so, and a value that is not there is `broken`.  Whoever walks the tree from left to
right meets what is wrong in the order of the text.

`Tree.ofTokens` builds the tree with a stack of what is open, so that no nesting is too deep; text
after the end of the value is reported beside it.  `Tree.intact` says that nothing is wrong.
-/

namespace Gatekeeper.Json

/-- A document as far as it can be read. -/
inductive Tree
  | null
  | bool (b : Bool)
  | num (n : Numeral)
  /-- A string, with its text if it has one. -/
  | text (s : Option String)
  /-- A list, and whether it was closed. -/
  | list (items : List Tree) (closed : Bool)
  /-- An object, and whether it was closed. -/
  | object (members : List (Option String × Tree)) (closed : Bool)
  /-- No value. -/
  | broken

namespace Tree

mutual

/-- Whether nothing in the tree breaks off. -/
def intact : Tree → Bool
  | null | bool _ | num _ | text _ => true
  | list items closed => intactItems items && closed
  | object members closed => intactMembers members && closed
  | broken => false

/-- Whether nothing in the items breaks off. -/
def intactItems : List Tree → Bool
  | [] => true
  | t :: ts => t.intact && intactItems ts

/-- Whether nothing in the members breaks off. -/
def intactMembers : List (Option String × Tree) → Bool
  | [] => true
  | (_, t) :: ts => t.intact && intactMembers ts

end

end Tree

/-! ## Building a tree -/

/-- Something that is open around the place that has been reached.  What it holds stands last
first. -/
inductive Frame
  /-- A list. -/
  | list (items : List Tree)
  /-- An object, between two members. -/
  | object (members : List (Option String × Tree))
  /-- An object, at the value of the member with this key. -/
  | member (members : List (Option String × Tree)) (key : Option String)

/-- What may come next. -/
inductive Expects
  /-- A value. -/
  | value
  /-- A value, or the end of the list that has just been opened. -/
  | firstItem
  /-- A key, or the end of the object that has just been opened. -/
  | firstKey
  /-- A key. -/
  | key
  /-- The colon after a key. -/
  | colon
  /-- A comma, or the end of what is open. -/
  | next
  deriving DecidableEq, Repr

/-- How far a tree has been built. -/
inductive Build
  /-- There is more to come, with these frames open, innermost first. -/
  | going (expects : Expects) (frames : List Frame)
  /-- The tree is there; whether there was text after it. -/
  | done (tree : Tree) (trailing : Bool)

namespace Build

/-- What a frame around a tree becomes when the document breaks off. -/
def Frame.cut (inner : Option Tree) : Frame → Tree
  | .list items => .list (inner.toList ++ items).reverse false
  | .object members => .object members.reverse false
  | .member members key => .object ((key, inner.getD .broken) :: members).reverse false

/-- The tree of a document that breaks off inside these frames. -/
def cut (frames : List Frame) : Build :=
  .done ((frames.foldl (fun inner f => some (Frame.cut inner f)) none).getD .broken) false

/-- A value is complete: it goes into the innermost frame. -/
def complete (t : Tree) : List Frame → Build
  | [] => .done t false
  | .list items :: fs => .going .next (.list (t :: items) :: fs)
  | .object members :: fs => .going .next (.object members :: fs)
  | .member members key :: fs => .going .next (.object ((key, t) :: members) :: fs)

/-- A value begins. -/
def value (fs : List Frame) : Token → Build
  | .null => complete .null fs
  | .bool b => complete (.bool b) fs
  | .num n => complete (.num n) fs
  | .text s => complete (.text s) fs
  | .openList => .going .firstItem (.list [] :: fs)
  | .openObject => .going .firstKey (.object [] :: fs)
  | _ => cut fs

/-- What one token does. -/
def step : Build → Token → Build
  | .done t _, _ => .done t true
  | .going .value fs, t => value fs t
  | .going .firstItem (.list [] :: fs), .closeList => complete (.list [] true) fs
  | .going .firstItem fs, t => value fs t
  | .going .firstKey (.object [] :: fs), .closeObject => complete (.object [] true) fs
  | .going .firstKey (.object members :: fs), .text key
  | .going .key (.object members :: fs), .text key => .going .colon (.member members key :: fs)
  | .going .colon fs, .colon => .going .value fs
  | .going .next (.list items :: fs), .comma => .going .value (.list items :: fs)
  | .going .next (.list items :: fs), .closeList => complete (.list items.reverse true) fs
  | .going .next (.object members :: fs), .comma => .going .key (.object members :: fs)
  | .going .next (.object members :: fs), .closeObject =>
    complete (.object members.reverse true) fs
  | .going _ fs, _ => cut fs

/-- The end of the document. -/
def finish : Build → Tree × Bool
  | .done t trailing => (t, trailing)
  | .going _ fs => match cut fs with
    | .done t trailing => (t, trailing)
    | .going _ _ => (.broken, false)

end Build

/-- The tree of a document, and whether there is text after it. -/
def Tree.ofTokens (ts : List Token) : Tree × Bool :=
  (ts.foldl Build.step (.going .value [])).finish

/-- The tree of a text, and whether there is text after it. -/
def Tree.ofText (s : String) : Tree × Bool := ofTokens (tokens s)

end Gatekeeper.Json
