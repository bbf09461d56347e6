/-!
# Durations

A duration is a whole number of nanoseconds. It is printed in the largest of the
units second, millisecond, microsecond and nanosecond of which it holds at least
one, with as many decimals as it needs and none more.
-/

namespace ResourceWatch

/-- A length of time. -/
structure Duration where
  /-- Its length in nanoseconds. -/
  nanos : Nat
deriving DecidableEq, Repr, Inhabited

namespace Duration

def ofSeconds (n : Nat) : Duration := ⟨n * 1000000000⟩

def ofMillis (n : Nat) : Duration := ⟨n * 1000000⟩

/-- The whole seconds that a duration holds. -/
def seconds (d : Duration) : Nat := d.nanos / 1000000000

/-- The shortest time in whole milliseconds that is not shorter than `d`. A
clock that ticks in milliseconds waits so long. -/
def millisUp (d : Duration) : Nat := (d.nanos + 999999) / 1000000

def isZero (d : Duration) : Bool := d.nanos == 0

/-- `places` decimal digits of a part of a unit, without zeros at the end. -/
def fractionDigits (places part : Nat) : List Char :=
  let digits := Nat.toDigits 10 part
  let padded := List.replicate (places - digits.length) '0' ++ digits
  (padded.reverse.dropWhile (· == '0')).reverse

/-- A number of nanoseconds counted in a unit of `10 ^ places` of them. -/
def inUnit (nanos places : Nat) (unit : String) : String :=
  let fraction := fractionDigits places (nanos % Nat.pow 10 places)
  let decimals := if fraction.isEmpty then "" else String.ofList ('.' :: fraction)
  toString (nanos / Nat.pow 10 places) ++ decimals ++ unit

/-- A duration in its largest fitting unit, such as `1.5s`, `7ms` or `0ns`. -/
def text (d : Duration) : String :=
  if 1000000000 ≤ d.nanos then inUnit d.nanos 9 "s"
  else if 1000000 ≤ d.nanos then inUnit d.nanos 6 "ms"
  else if 1000 ≤ d.nanos then inUnit d.nanos 3 "µs"
  else inUnit d.nanos 0 "ns"

end Duration

end ResourceWatch
