/-!
# Decimal/Shortest — the fewest digits that read back

A binary floating-point number stands for every real that rounds to it.  `shortest` picks, of the
decimals in that interval, one with the fewest digits, and of those the nearest to the number.  It
works on the exact value `m · 2 ^ q` in natural numbers.

`Layout` says how the digits are then written: positionally within a range of exponents, otherwise
with an exponent.
-/

namespace Gatekeeper.Decimal

/-! ## The value and its interval -/

/-- A positive binary number `m · 2 ^ q`, with the reals that round to it in quarters of its last
place: from `4 m - below` to `4 m + 2`, ends included when `m` is even. -/
structure Binary where
  /-- The significand. -/
  m : Nat
  /-- The exponent. -/
  q : Int
  /-- The distance to the lower end of the interval, in quarters of the last place. -/
  below : Nat
  deriving Repr, DecidableEq

/-- The parts of a double that is finite and not zero, by its sixty-four bits. -/
def Binary.ofBits (bits : Nat) : Binary :=
  let fraction : Nat := bits % Nat.pow 2 52
  let exponent : Nat := bits / Nat.pow 2 52 % Nat.pow 2 11
  if exponent = 0 then ⟨fraction, -1074, 2⟩
  else ⟨Nat.pow 2 52 + fraction, (exponent : Int) - 1075,
    if fraction = 0 ∧ 1 < exponent then 1 else 2⟩

/-- The quotient `n · 2 ^ (q - 2) / 10 ^ k` as a numerator and a denominator. -/
def scaled (n : Nat) (q k : Int) : Nat × Nat :=
  (n * Nat.pow 2 (q - 2).toNat * Nat.pow 10 (-k).toNat,
    Nat.pow 2 (2 - q).toNat * Nat.pow 10 k.toNat)

/-- Whether `d · 10 ^ k` rounds to the number. -/
def Binary.admits (b : Binary) (d : Nat) (k : Int) : Bool :=
  let low := scaled (4 * b.m - b.below) b.q k
  let high := scaled (4 * b.m + 2) b.q k
  if b.m % 2 = 0 then low.1 ≤ d * low.2 && d * high.2 ≤ high.1
  else low.1 < d * low.2 && d * high.2 < high.1

/-- The power of ten above the number: the least `e` for which the number is below `10 ^ e`. -/
def Binary.magnitude (b : Binary) : Int :=
  let v := scaled (4 * b.m) b.q 0
  if v.2 ≤ v.1 then (Nat.toDigits 10 (v.1 / v.2)).length
  else
    match (List.range 400).find? fun j => v.2 ≤ v.1 * Nat.pow 10 (j + 1) with
    | some zeros => -(zeros : Int)
    | none => 0

/-- The multiple of `10 ^ k` nearest to the number among its two neighbours that round to it. -/
def Binary.neighbour? (b : Binary) (k : Int) : Option Nat :=
  let v := scaled (4 * b.m) b.q k
  let d : Nat := v.1 / v.2
  let rest : Nat := v.1 % v.2
  match b.admits d k, b.admits (d + 1) k with
  | true, true =>
    some (if 2 * rest < v.2 ∨ (2 * rest = v.2 ∧ d % 2 = 0) then d else d + 1)
  | true, false => some d
  | false, true => some (d + 1)
  | false, false => none

/-- The shortest decimal that rounds to the number, as `d` and `k` of `d · 10 ^ k`. -/
def Binary.shortest (b : Binary) : Nat × Int :=
  let e := b.magnitude
  let found := (List.range 17).findSome? fun (n : Nat) =>
    let k : Int := e - (n + 1)
    (b.neighbour? k).map (·, k)
  found.getD (b.m, 0)

/-! ## Writing the digits -/

/-- How a decimal is written. -/
structure Layout where
  /-- The lowest exponent of the leading digit that is written positionally. -/
  lowest : Int
  /-- The highest exponent of the leading digit that is written positionally. -/
  highest : Int
  /-- What stands between the digits and an exponent that is not negative. -/
  rising : String
  /-- What stands between the digits and the digits of a negative exponent. -/
  falling : String

/-- Digits without the zeros at their end. -/
def significant (d : Nat) : List Char :=
  ((Nat.toDigits 10 d).reverse.dropWhile (· == '0')).reverse

/-- The text of `d · 10 ^ k`, for `d` not zero. -/
def Layout.write (l : Layout) (d : Nat) (k : Int) : String :=
  let digits := significant d
  let point : Int := (Nat.toDigits 10 d).length + k
  let size := digits.length
  if l.lowest ≤ point - 1 ∧ point - 1 ≤ l.highest then
    if point ≤ 0 then
      String.ofList (['0', '.'] ++ List.replicate (-point).toNat '0' ++ digits)
    else if size ≤ point.toNat then
      String.ofList (digits ++ List.replicate (point.toNat - size) '0' ++ ['.', '0'])
    else
      String.ofList (digits.take point.toNat ++ '.' :: digits.drop point.toNat)
  else
    let mantissa := match digits with
      | [] => []
      | [c] => [c]
      | c :: cs => c :: '.' :: cs
    String.ofList mantissa ++ (if point - 1 < 0 then l.falling else l.rising)
      ++ toString (point - 1).natAbs

/-- The text of a finite double. -/
def Layout.writeFloat (l : Layout) (x : Float) : String :=
  let bits := x.toBits.toNat
  let magnitude := bits % Nat.pow 2 63
  let sign := if Nat.pow 2 63 ≤ bits then "-" else ""
  if magnitude = 0 then sign ++ "0.0"
  else
    let (d, k) := (Binary.ofBits magnitude).shortest
    sign ++ l.write d k

end Gatekeeper.Decimal
