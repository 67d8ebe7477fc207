import Gatekeeper.Text.LetterCase.Table

/-!
# Text/LetterCase — lower case, and comparison without regard to ASCII case

Two rules of different reach.

* `lower` is full Unicode lower case.  Every letter goes to its own lower case (`lowerChar`), except
  that a capital sigma is written as the final form `ς` where it ends a word (`endsWord`).
* `sameLetters` compares texts up to the case of the ASCII letters only, so that `ſ` or `İ` never
  stand for `s` or `i`.
-/

namespace Gatekeeper.Text

/-! ## Without regard to ASCII case -/

/-- Whether two texts are equal up to the case of the letters `A` to `Z`. -/
def sameLetters (a b : String) : Bool :=
  a.toList.map Char.toLower == b.toList.map Char.toLower

theorem sameLetters_iff (a b : String) :
    sameLetters a b = true ↔ a.toList.map Char.toLower = b.toList.map Char.toLower := by
  simp [sameLetters]

/-- A text with its ASCII capitals in lower case. -/
def lowerAscii (s : String) : String :=
  String.ofList (s.toList.map Char.toLower)

/-! ## Full lower case -/

namespace LetterCase

/-- Whether a code point lies in one of the ranges. -/
def within (ranges : List (Nat × Nat)) (c : Char) : Bool :=
  ranges.any fun r => r.1 ≤ c.toNat && c.toNat ≤ r.2

/-- The property `Cased`. -/
def isCased (c : Char) : Bool := within casedRanges c

/-- The property `Case_Ignorable`. -/
def isIgnorable (c : Char) : Bool := within ignorableRanges c

/-- The lower case of one character on its own: one character, or two for the dotted capital I. -/
def lowerChar (c : Char) : List Char :=
  if c = '\u0130' then ['i', '\u0307']
  else match lowerRuns.find? (·.holds c.toNat) with
    | some r => [Char.ofNat (r.lowerOf c.toNat)]
    | none => [c]

/-- Whether the first character that is not ignorable is a cased one. -/
def meetsCased (cs : List Char) : Bool :=
  match cs.dropWhile isIgnorable with
  | [] => false
  | c :: _ => isCased c

/-- Whether a capital sigma ends a word: a cased letter comes before it and none comes after it,
ignorable characters aside.  `before` holds what precedes it, nearest first. -/
def endsWord (before after : List Char) : Bool :=
  meetsCased before && !meetsCased after

/-- The lower case of the characters that follow `before` (nearest first). -/
def lowerFrom (before : List Char) : List Char → List Char
  | [] => []
  | c :: cs =>
    (if c = 'Σ' then [if endsWord before cs then 'ς' else 'σ'] else lowerChar c)
      ++ lowerFrom (c :: before) cs

/-- The full lower case of a list of characters. -/
def lowerChars (cs : List Char) : List Char := lowerFrom [] cs

end LetterCase

/-- The full lower case of a text. -/
def lower (s : String) : String :=
  String.ofList (LetterCase.lowerChars s.toList)

@[simp] theorem toList_lower (s : String) : (lower s).toList = LetterCase.lowerChars s.toList := by
  simp [lower]

@[simp] theorem lower_empty : lower "" = "" := rfl

end Gatekeeper.Text
