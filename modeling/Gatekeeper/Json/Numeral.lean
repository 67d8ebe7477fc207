import Gatekeeper.Decimal.Shortest

/-!
# Json/Numeral — numbers as they are written and what they are worth

A `Numeral` keeps the digits of a number as they stand in a document.  `Numeral.number?` is its
worth: an integer if it is written as one and fits sixty-four bits, otherwise a double.  Leading
digits are gathered while they fit sixty-four bits and the rest only move the decimal point, so the
double may be off by a unit in the last place.  A numeral beyond the range of doubles has no worth.
-/

namespace Gatekeeper.Json

/-- The digits of a number as written. -/
structure Numeral where
  /-- Whether a minus sign comes first. -/
  negative : Bool
  /-- The digits before the point. -/
  whole : List Nat
  /-- The digits after the point, if there is one. -/
  fraction : Option (List Nat)
  /-- The exponent, if there is one: whether it is negative, and its digits. -/
  exponent : Option (Bool × List Nat)
  deriving DecidableEq, Repr

/-- The worth of a number. -/
inductive Number
  | integer (i : Int)
  | double (x : Float)

/-- The number that the digits make after `n`, as far as it fits sixty-four bits, and how many
digits are left out. -/
def gather (n : Nat) : List Nat → Nat × Nat
  | [] => (n, 0)
  | d :: ds => if n * 10 + d < Nat.pow 2 64 then gather (n * 10 + d) ds else (n, ds.length + 1)

/-- The power of ten as a double. -/
def tenTo (n : Nat) : Float := Float.ofScientific 1 false n

/-- `n · 10 ^ e` as a double, one rounding for `n` and one for each power of ten; `none` when it is
too large. -/
def scale? (n : Nat) (e : Int) : Option Float :=
  let x := (UInt64.ofNat n).toFloat
  if n = 0 then some 0
  else if 308 < e then none
  else if 0 ≤ e then
    let y := x * tenTo e.toNat
    if y.isInf then none else some y
  else if -308 ≤ e then some (x / tenTo (-e).toNat)
  else if -616 ≤ e then some (x / tenTo 308 / tenTo (-e - 308).toNat)
  else some 0

/-- The worth of an exponent: `none` when it does not fit thirty-two bits. -/
def exponentOf? (negative : Bool) (digits : List Nat) : Option Int :=
  let e : Nat := digits.foldl (fun n d => n * 10 + d) 0
  if e < Nat.pow 2 31 then some (if negative then -(e : Int) else e) else none

namespace Numeral

/-- The double that a numeral stands for, its sign aside. -/
def magnitude? (n : Numeral) : Option Float :=
  let (front, dropped) := gather 0 n.whole
  let digits := n.fraction.getD []
  let (all, left) := gather front digits
  let shift : Int := dropped - (digits.length - left : Nat)
  match n.exponent with
  | none => scale? all shift
  | some (negative, ds) =>
    match exponentOf? negative ds with
    | some e => scale? all (shift + e)
    | none => if all = 0 ∨ negative then some 0 else none

/-- The integer that a numeral stands for, if it is written as one, fits sixty-four bits, and is not
a negative zero. -/
def integer? (n : Numeral) : Option Int :=
  match n.fraction, n.exponent with
  | none, none =>
    let (all, dropped) := gather 0 n.whole
    if dropped ≠ 0 then none
    else if n.negative then (if 0 < all ∧ all ≤ Nat.pow 2 63 then some (-(all : Int)) else none)
    else some all
  | _, _ => none

/-- The worth of a numeral. -/
def number? (n : Numeral) : Option Number :=
  match n.integer? with
  | some i => some (.integer i)
  | none => n.magnitude?.map fun x => .double (if n.negative then -x else x)

end Numeral

end Gatekeeper.Json
