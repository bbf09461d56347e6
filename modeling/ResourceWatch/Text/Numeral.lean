/-!
# Decimal numerals

A numeral is one or more ASCII digits, with any number of leading zeros, after
an optional sign. A reader names the largest value that it has room for: a
numeral of a larger value is refused like any other text that is no numeral.
-/

namespace ResourceWatch.Text

/-- Whether a character is one of the ten ASCII digits. -/
def isDigit (c : Char) : Bool := '0' ≤ c && c ≤ '9'

def digitValue (c : Char) : Nat := c.toNat - '0'.toNat

/-- The value of a hexadecimal digit. -/
def hexDigit? (c : Char) : Option Nat :=
  if isDigit c then some (digitValue c)
  else if 'a' ≤ c ∧ c ≤ 'f' then some (c.toNat - 'a'.toNat + 10)
  else if 'A' ≤ c ∧ c ≤ 'F' then some (c.toNat - 'A'.toNat + 10)
  else none

/-- The number that a string of digits stands for, in base ten. -/
def digitsValue (cs : List Char) : Nat :=
  cs.foldl (fun n c => 10 * n + digitValue c) 0

/-- One or more digits and nothing else, read as a number. -/
def readDigits? (cs : List Char) : Option Nat :=
  if cs.isEmpty || !cs.all isDigit then none else some (digitsValue cs)

/-- A number no larger than `max`: digits after at most one plus sign. -/
def readNat? (max : Nat) (s : String) : Option Nat :=
  let digits := match s.toList with
    | '+' :: rest => rest
    | cs => cs
  (readDigits? digits).filter (· ≤ max)

/-- A number from `-max - 1` to `max`: digits after at most one sign. -/
def readInt? (max : Nat) (s : String) : Option Int :=
  match s.toList with
  | '-' :: rest => ((readDigits? rest).filter (· ≤ max + 1)).map fun n => -(n : Int)
  | '+' :: rest => ((readDigits? rest).filter (· ≤ max)).map Int.ofNat
  | cs => ((readDigits? cs).filter (· ≤ max)).map Int.ofNat

/-- A character with an ASCII capital letter made small. Letters beyond ASCII
are left alone. -/
def lowerChar (c : Char) : Char := if 'A' ≤ c ∧ c ≤ 'Z' then Char.ofNat (c.toNat + 32) else c

/-- A text with its ASCII capital letters made small. -/
def lower (s : String) : String := String.ofList (s.toList.map lowerChar)

end ResourceWatch.Text
