/-!
# Double-precision numbers

The finite numbers of double precision, in exact arithmetic: a sign, and a
significand below `2 ^ 53` times a power of two no smaller than `2 ^ -1074`. Zero
has both signs. An operation rounds its exact result to the nearest number, and
of two equally near ones to the one with the even significand. Where that leads
beyond the largest number there is no result.
-/

namespace ResourceWatch

structure Double where
  /-- Whether the sign is a minus. -/
  negative : Bool
  /-- The significand. It reaches `2 ^ 52` unless the exponent is the least one. -/
  significand : Nat
  /-- The exponent of two. -/
  exponent : Int
deriving DecidableEq, Repr, Inhabited

namespace Double

def leastExponent : Int := -1074

def greatestExponent : Int := 971

/-- The significand from which on a number is too large for its exponent. -/
def significandLimit : Nat := Nat.pow 2 53

/-- The significand below which a number has to have the least exponent. -/
def normalSignificand : Nat := Nat.pow 2 52

def zero (negative : Bool) : Double := ⟨negative, 0, leastExponent⟩

def isZero (x : Double) : Bool := x.significand == 0

/-- A power as numerator and denominator. -/
def power (base : Nat) : Int → Nat × Nat
  | .ofNat n => (Nat.pow base n, 1)
  | .negSucc n => (1, Nat.pow base (n + 1))

/-- The magnitude of a number as numerator and denominator. -/
def ratio (x : Double) : Nat × Nat :=
  let (num, den) := power 2 x.exponent
  (x.significand * num, den)

/-- The quotient of two numbers rounded to the nearest whole number, half-way ones
to the even one. -/
def roundedQuotient (num den : Nat) : Nat :=
  let q := num / den
  let twice := 2 * (num % den)
  if twice < den ∨ (twice = den ∧ q % 2 = 0) then q else q + 1

/-- The exponent with which the significand of `num / den` takes 53 bits, or the
least one if that is greater. -/
def exponentFor (num den : Nat) : Int :=
  let guess : Int := (num.log2 : Int) - den.log2 - 53
  let (up, down) := power 2 guess
  let e := if num * down < significandLimit * (den * up) then guess else guess + 1
  if e < leastExponent then leastExponent else e

/-- The number nearest to `num / den`, if it is not beyond the largest one. -/
def ofRatio? (num den : Nat) : Option Double :=
  if num = 0 then some (zero false)
  else
    let e := exponentFor num den
    let (up, down) := power 2 e
    let s := roundedQuotient (num * down) (den * up)
    let (s, e) := if s = significandLimit then (normalSignificand, e + 1) else (s, e)
    if greatestExponent < e then none else some ⟨false, s, e⟩

def ofNat? (n : Nat) : Option Double := ofRatio? n 1

/-- The magnitude of a product. -/
def mul? (x y : Double) : Option Double :=
  ofRatio? (x.ratio.1 * y.ratio.1) (x.ratio.2 * y.ratio.2)

/-- The magnitude of a quotient. -/
def div? (x y : Double) : Option Double :=
  ofRatio? (x.ratio.1 * y.ratio.2) (x.ratio.2 * y.ratio.1)

/-- The largest power of ten among the numbers, by its exponent. -/
def greatestTenth : Nat := 308

/-- The magnitude of a number times a power of ten: one product with the number
nearest to the power, or one quotient by it. What the least power of ten leaves
is divided once more. -/
def timesTenth? (x : Double) (e : Int) : Option Double := do
  let tenth (n : Nat) : Option Double := ofNat? (Nat.pow 10 n)
  if x.isZero then return zero false
  match e with
  | .ofNat n => if greatestTenth < n then none else x.mul? (← tenth n)
  | .negSucc n =>
    if n < greatestTenth then x.div? (← tenth (n + 1))
    else
      let y ← x.div? (← tenth greatestTenth)
      if n < 2 * greatestTenth then y.div? (← tenth (n + 1 - greatestTenth))
      else return zero false

/-- The number that `significand · 10 ^ e` is read as. -/
def ofDecimal? (negative : Bool) (significand : Nat) (e : Int) : Option Double := do
  let x ← (← ofNat? significand).timesTenth? e
  return { x with negative }

end Double

end ResourceWatch
