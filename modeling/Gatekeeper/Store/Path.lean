import Gatekeeper.Text.Blank

/-!
# Store/Path — paths of nodes

A path is a text whose segments are separated by `/`.  `child parent name` is the path of a node
below another one, where a `/` at the end of the parent's path makes no difference; `lastSegment`
and `parent?` take a path apart again (`lastSegment_child`), and `childName? parent path` is the
name under which a path stands directly below a parent.
-/

namespace Gatekeeper.Path

/-- The separator of segments. -/
def isSlash (c : Char) : Bool := c == '/'

/-- The characters that the paths of a node's children begin with. -/
def childStem (parent : String) : List Char :=
  Text.dropEndWhile isSlash parent.toList ++ ['/']

/-- The path of a node directly below another one. -/
def child (parent name : String) : String :=
  String.ofList (childStem parent ++ name.toList)

/-- What stands behind the last separator. -/
def lastSegment (path : String) : String :=
  String.ofList (path.toList.reverse.takeWhile (!isSlash ·)).reverse

/-- What stands before the last separator, if there is one. -/
def parent? (path : String) : Option String :=
  match path.toList.reverse.dropWhile (!isSlash ·) with
  | [] => none
  | _ :: before => some (String.ofList before.reverse)

/-- The name under which a path stands directly below a parent, if it does. -/
def childName? (parent path : String) : Option String :=
  match (childStem parent).isPrefixOf? path.toList with
  | some name => if name.any isSlash then none else some (String.ofList name)
  | none => none

/-! ## Taking a child's path apart -/

@[simp] theorem toList_child (parent name : String) :
    (child parent name).toList = childStem parent ++ name.toList := by
  simp [child]

theorem takeWhile_append_of_all {p : Char → Bool} {xs ys : List Char} {y : Char}
    (hxs : ∀ x ∈ xs, p x = true) (hy : p y = false) : (xs ++ y :: ys).takeWhile p = xs := by
  induction xs with
  | nil => simp [hy]
  | cons x xs ih =>
    simp only [List.cons_append]
    rw [List.takeWhile_cons, if_pos (hxs x (by simp)), ih fun z hz => hxs z (by simp [hz])]

/-- **A child's last segment is its name**, if the name is a single segment. -/
theorem lastSegment_child (parent : String) {name : String}
    (h : ∀ c ∈ name.toList, isSlash c = false) : lastSegment (child parent name) = name := by
  have hrev : (childStem parent ++ name.toList).reverse
      = name.toList.reverse ++ '/' :: (Text.dropEndWhile isSlash parent.toList).reverse := by
    simp [childStem]
  rw [lastSegment, toList_child, hrev, takeWhile_append_of_all]
  · simp
  · intro x hx
    simp [h x (by simpa using hx)]
  · rfl

end Gatekeeper.Path
