import Gatekeeper.Text.Base64
import Gatekeeper.Text.Blank

/-!
# Access/Token — what a request proves itself with

A token is the base64 form of `name:secret` without its padding (`Token.build`).  An `Authorization`
value carries a token in its second word, behind the word for the scheme, with or without padding
(`Token.ofHeader?`).  `Token.clean` takes padding away, and then the blanks that taking it away may
have laid bare; `clean_clean` says that nothing is left for a second time.
-/

namespace Gatekeeper.Token

open Text (trim words)

/-- Characters without the padding sign, and then without the blanks at either end. -/
def cleanChars (cs : List Char) : List Char := trim (cs.filter (· ≠ '='))

/-- A text without the padding sign, and then without the blanks at either end. -/
def clean (s : String) : String := String.ofList (cleanChars s.toList)

/-- The token of a name and a secret. -/
def build (name secret : String) : String :=
  String.ofList (Text.Base64.encode (Text.Base64.utf8 (name ++ ":" ++ secret)))

/-- The token that an `Authorization` value carries: its second word without padding, unless nothing
is left of it. -/
def ofHeader? (value : String) : Option String :=
  match (words value.toList)[1]? with
  | none => none
  | some w =>
    match cleanChars w with
    | [] => none
    | c :: cs => some (String.ofList (c :: cs))

theorem cleanChars_cleanChars (cs : List Char) : cleanChars (cleanChars cs) = cleanChars cs := by
  have h : (cleanChars cs).filter (· ≠ '=') = cleanChars cs := by
    rw [List.filter_eq_self]
    intro c hc
    have hmem : c ∈ cs.filter (· ≠ '=') :=
      (List.dropWhile_sublist _).subset ((Text.dropEndWhile_isPrefix _ _).subset hc)
    exact (List.mem_filter.1 hmem).2
  rw [cleanChars, h, cleanChars, Text.trim_trim]

/-- **A clean token stays as it is.** -/
theorem clean_clean (s : String) : clean (clean s) = clean s := by
  simp [clean, cleanChars_cleanChars]

end Gatekeeper.Token
