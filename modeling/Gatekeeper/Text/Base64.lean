/-!
# Text/Base64 — base64 without padding

`encode` writes three bytes as four digits of six bits each; one byte left over takes two digits and
two bytes take three (`length_encode`: `k` bytes take `⌈4 k / 3⌉` digits).  There is no padding, so
the number of bytes is read off the number of digits.
-/

namespace Gatekeeper.Text.Base64

/-- The digits by value: capitals, small letters, decimal digits, plus, slash. -/
def alphabet : List Char :=
  "ABCDEFGHIJKLMNOPQRSTUVWXYZabcdefghijklmnopqrstuvwxyz0123456789+/".toList

/-- The digit of a value below 64. -/
def digit (n : Nat) : Char := alphabet[n]?.getD 'A'

/-- The base64 digits of a list of bytes. -/
def encode : List UInt8 → List Char
  | [] => []
  | [a] => [digit (a.toNat / 4), digit (a.toNat % 4 * 16)]
  | [a, b] =>
    [digit (a.toNat / 4), digit (a.toNat % 4 * 16 + b.toNat / 16), digit (b.toNat % 16 * 4)]
  | a :: b :: c :: rest =>
    digit (a.toNat / 4) :: digit (a.toNat % 4 * 16 + b.toNat / 16)
      :: digit (b.toNat % 16 * 4 + c.toNat / 64) :: digit (c.toNat % 64) :: encode rest

/-- The UTF-8 bytes of a text. -/
def utf8 (s : String) : List UInt8 := s.toUTF8.data.toList

@[simp] theorem length_encode : ∀ bs : List UInt8, (encode bs).length = (4 * bs.length + 2) / 3
  | [] => rfl
  | [_] => by simp [encode]
  | [_, _] => by simp [encode]
  | a :: b :: c :: rest => by
    simp only [encode, List.length_cons, length_encode rest]
    omega

end Gatekeeper.Text.Base64
