import Gatekeeper.Cipher.Basic

/-!
# Cipher/Reversing — a stand-in cipher

`reversing` writes the mark `enc:` and then the text backwards.  It needs a key but does not use it,
and it refuses a text that holds `!noenc`, so that every way in which a cipher can fail can be seen.
`reversing_lawful` says that it is a lawful cipher.
-/

namespace Gatekeeper.Cipher

/-- Whether a list of characters holds the pattern somewhere. -/
def holds (pattern : List Char) : List Char → Bool
  | [] => pattern.isEmpty
  | c :: cs => pattern.isPrefixOf (c :: cs) || holds pattern cs

/-- The mark of an encrypted text. -/
def mark : List Char := ['e', 'n', 'c', ':']

/-- What no text to be encrypted may hold. -/
def refusedPattern : List Char := ['!', 'n', 'o', 'e', 'n', 'c']

/-- The cipher that writes texts backwards. -/
def reversing : Cipher where
  encrypt key plain :=
    if key = "" then .error .invalidKey
    else if holds refusedPattern plain.toList then .error .encryptFailed
    else .ok (String.ofList (mark ++ plain.toList.reverse))
  decrypt key hidden :=
    if key = "" then .error .invalidKey
    else match mark.isPrefixOf? hidden.toList with
      | some rest => .ok (String.ofList rest.reverse)
      | none => .error .decryptFailed

/-- **The reversing cipher is lawful.** -/
theorem reversing_lawful : reversing.Lawful := by
  intro key plain hidden h
  simp only [reversing] at h ⊢
  split at h
  · cases h
  · next hk =>
    split at h
    · cases h
    · cases h
      have hmark : mark.isPrefixOf? (mark ++ plain.toList.reverse) = some plain.toList.reverse :=
        rfl
      simp [hk, hmark]

end Gatekeeper.Cipher
