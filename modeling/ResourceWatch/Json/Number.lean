import ResourceWatch.Json
import ResourceWatch.Text.Numeral

/-!
# The value of a numeral

A numeral without fraction and exponent is a whole number if it has room in 64
bits, with or without a sign; but minus zero is none. Every other numeral is read
in double precision. Of its digits as many count as have room in 64 bits, and what
they amount to is scaled by a power of ten.
-/

namespace ResourceWatch.Json

/-- A numeral by its parts. -/
structure Numeral where
  /-- Whether a minus sign stands in front. -/
  negative : Bool
  /-- The digits in front of the point. -/
  whole : List Char
  /-- The digits behind the point, if there is one. -/
  fraction : Option (List Char)
  /-- The exponent, if there is one. -/
  exponent : Option Int
deriving DecidableEq, Repr

namespace Numeral

/-- Take digits up into a number as long as it has room in 64 bits. The digits
that are left are handed back. -/
def takeUp (n : Nat) : List Char → Nat × List Char
  | [] => (n, [])
  | c :: cs =>
    let m := 10 * n + Text.digitValue c
    if m < Nat.pow 2 64 then takeUp m cs else (n, c :: cs)

def int? (x : Numeral) : Option Int :=
  match x.fraction, x.exponent, takeUp 0 x.whole with
  | none, none, (n, []) =>
    if !x.negative then some n
    else if n = 0 ∨ Nat.pow 2 63 < n then none
    else some (-(n : Int))
  | _, _, _ => none

/-- The number of a numeral in double precision, if there is one so large. -/
def double? (x : Numeral) : Option Double :=
  let fraction := x.fraction.getD []
  let (n, dropped) := takeUp 0 x.whole
  let (n, left) := takeUp n fraction
  let shift : Int := (dropped.length : Int) - (fraction.length - left.length : Nat)
  Double.ofDecimal? x.negative n (shift + x.exponent.getD 0)

def value? (x : Numeral) : Option Json :=
  match x.int? with
  | some n => some (.int n)
  | none => x.double?.map .float

end Numeral

end ResourceWatch.Json
