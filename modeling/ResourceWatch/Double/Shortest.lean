import ResourceWatch.Double

/-!
# The shortest decimal of a double-precision number

A number is written with the fewest decimal digits that read back as it. Of the
decimals with so few digits it is the one nearest to the number.
-/

namespace ResourceWatch.Double

/-- A decimal: digits, and the power of ten that the last of them counts. -/
structure Decimal where
  /-- The digits as a number. -/
  digits : Nat
  /-- The exponent of ten. -/
  exponent : Int
deriving DecidableEq, Repr

/-- How a decimal compares with a ratio: the two sides multiplied out. -/
def Decimal.sides (d : Decimal) (num den : Nat) : Nat × Nat :=
  let (up, down) := power 10 d.exponent
  (d.digits * up * den, num * down)

/-- Whether a decimal reads back as a number, which is not zero: it is no further
from it than half-way to its neighbours, and may lie half-way if the significand
is even. Below a power of two the neighbour is nearer than above. -/
def readsBack (x : Double) (d : Decimal) : Bool :=
  let narrow := x.significand == normalSignificand && leastExponent < x.exponent
  let quarter : Double := { x with significand := 1, exponent := x.exponent - 2 }
  let bound (steps : Nat) := d.sides (steps * quarter.ratio.1) quarter.ratio.2
  let (low, least) := bound (4 * x.significand - (if narrow then 1 else 2))
  let (high, most) := bound (4 * x.significand + 2)
  if x.significand % 2 = 0 then least ≤ low && high ≤ most else least < low && high < most

/-- The exponent of ten of the first digit of a ratio. -/
def firstTenth (num den : Nat) : Int :=
  if den ≤ num then (Nat.toDigits 10 (num / den)).length - 1
  else
    let n := (Nat.toDigits 10 (den / num)).length
    if den = num * Nat.pow 10 (n - 1) then -((n - 1 : Nat) : Int) else -(n : Int)

/-- The decimals of so many digits that adjoin a ratio, the nearer one first. Of
two that are equally near the one with the even digits comes first. -/
def adjoining (num den count : Nat) : List Decimal :=
  let e : Int := firstTenth num den + 1 - count
  let (up, down) := power 10 e
  let below := num * down / (den * up)
  let twice := 2 * (num * down % (den * up))
  let lower : Decimal := ⟨below, e⟩
  let upper : Decimal := ⟨below + 1, e⟩
  if twice < den * up ∨ (twice = den * up ∧ below % 2 = 0) then [lower, upper]
  else [upper, lower]

/-- A decimal without zeros at its end. -/
def Decimal.trimmed (d : Decimal) : Nat → Decimal
  | 0 => d
  | fuel + 1 =>
    if d.digits % 10 = 0 then Decimal.trimmed ⟨d.digits / 10, d.exponent + 1⟩ fuel else d

/-- How many digits are enough for every number. -/
def enoughDigits : Nat := 17

/-- The shortest decimal of the magnitude of a number, which is not zero. -/
def shortest (x : Double) : Decimal :=
  let (num, den) := x.ratio
  let found := (List.range enoughDigits).findSome? fun n =>
    (adjoining num den (n + 1)).find? x.readsBack
  (found.getD ⟨0, 0⟩).trimmed enoughDigits

/-- A decimal in digits. The point is written, with at least one digit on both
sides, if it stands within the first sixteen digits or no more than five places in
front of them. Otherwise it stands behind the first digit, if there are more, and
an exponent follows. -/
def Decimal.text (d : Decimal) : String :=
  let digits := Nat.toDigits 10 d.digits
  let point : Int := digits.length + d.exponent
  let zeros (n : Int) : List Char := List.replicate n.toNat '0'
  String.ofList <|
    if 0 ≤ d.exponent ∧ point ≤ 16 then digits ++ zeros d.exponent ++ ['.', '0']
    else if 0 < point ∧ point ≤ 16 then
      digits.take point.toNat ++ '.' :: digits.drop point.toNat
    else if -5 < point ∧ point ≤ 0 then ['0', '.'] ++ zeros (-point) ++ digits
    else
      let fraction := if digits.length = 1 then [] else '.' :: digits.drop 1
      digits.take 1 ++ fraction ++ 'e' :: (toString (point - 1)).toList

def text (x : Double) : String :=
  (if x.negative then "-" else "") ++ (if x.isZero then "0.0" else x.shortest.text)

end ResourceWatch.Double
