import ResourceWatch.Text.Blank
import ResourceWatch.Text.Numeral

/-!
# Timestamps

A timestamp is a date and a time of day with their distance from universal time.
The parts are written as RFC 3339 has them, but more freely: blanks may stand in
front of each part and each sign between the parts of the date and of the time,
the numbers may have fewer digits, a space may stand for the `T`, and the colon of
the distance may be missing. The date has to be one of the Gregorian calendar,
and may not be too far away, even in universal time.
-/

namespace ResourceWatch.Text

namespace Timestamp

/-- What takes characters from the front of a text, if it fits. -/
abbrev Parse := StateT (List Char) Option

/-- The text does not fit. -/
def fail {α : Type} : Parse α := StateT.lift none

/-- The text does not fit unless this holds. -/
def require (p : Bool) : Parse Unit := if p then pure () else fail

def skipBlank : Parse Unit := modify (·.dropWhile isBlank)

/-- Take the next character if it has a property. -/
def accept? (p : Char → Bool) : Parse (Option Char) := do
  match (← get).head?.filter p with
  | some c => modify List.tail; return some c
  | none => return none

/-- Take the next character, which has to have a property. -/
def expect (p : Char → Bool) : Parse Unit := do require (← accept? p).isSome

/-- Take digits, of which there is one at least, but no more than `most` if that is
given. -/
def digits (most : Option Nat) : Parse Nat := do
  let all := (← get).takeWhile isDigit
  let cs := (most.map all.take).getD all
  require !cs.isEmpty
  modify (·.drop cs.length)
  return digitsValue cs

def twoDigits : Parse Nat := do
  let cs := (← get).take 2
  require (cs.length == 2 && cs.all isDigit)
  modify (·.drop 2)
  return digitsValue cs

/-- Take a number of at most two digits from `least` up to `most`. -/
def part (least most : Nat) : Parse Nat := do
  skipBlank
  let n ← digits (some 2)
  require (least ≤ n && n ≤ most)
  return n

/-- Take a year: up to four digits, or any number of them behind a sign. -/
def year : Parse Int := do
  skipBlank
  match ← accept? fun c => c == '-' || c == '+' with
  | some '-' => return -(← digits none : Nat)
  | some _ => return (← digits none : Nat)
  | none => return (← digits (some 4) : Nat)

/-- Take the sign between two parts. -/
def between (c : Char) : Parse Unit := do skipBlank; expect (· == c)

def isLeapYear (y : Int) : Bool := y % 4 == 0 && (y % 100 != 0 || y % 400 == 0)

def daysOf (y : Int) (month : Nat) : Nat :=
  if month == 2 then if isLeapYear y then 29 else 28
  else if [4, 6, 9, 11].contains month then 30
  else 31

/-- A date. -/
structure Date where
  year : Int
  month : Nat
  day : Nat
deriving DecidableEq, Repr

def earliest : Date := ⟨-262143, 1, 1⟩

def latest : Date := ⟨262142, 12, 31⟩

def date : Parse Date := do
  let year ← year
  between '-'
  let month ← part 1 12
  between '-'
  let day ← part 1 31
  require (earliest.year ≤ year && year ≤ latest.year && day ≤ daysOf year month)
  return ⟨year, month, day⟩

/-- Take a time of day. The answer is how many seconds of the day have passed, not
counting a leap second. -/
def time : Parse Nat := do
  let hour ← part 0 23
  between ':'
  let minute ← part 0 59
  between ':'
  let second ← part 0 60
  if (← accept? (· == '.')).isSome then discard (digits none)
  return 3600 * hour + 60 * minute + Nat.min second 59

def universal? : Parse Bool := do
  let cs ← get
  if lower (String.ofList (cs.take 3)) == "utc" then
    set (cs.drop 3)
    return true
  else return (← accept? fun c => c == 'Z' || c == 'z').isSome

/-- Take the distance from universal time, in seconds. -/
def distance : Parse Int := do
  skipBlank
  if ← universal? then return 0
  let some sign ← accept? fun c => c == '+' || c == '-' || c == '\u2212' | fail
  let hours ← twoDigits
  modify (·.dropWhile fun c => c == ':' || isBlank c)
  let minutes ← twoDigits
  require (minutes < 60 && hours < 24)
  let seconds : Int := (3600 * hours + 60 * minutes : Nat)
  return if sign == '+' then seconds else -seconds

def timestamp : Parse Unit := do
  let date ← date
  expect fun c => c == 'T' || c == 't' || c == ' '
  let seconds ← time
  let universal := seconds - (← distance)
  require !(date == earliest && universal < 0)
  require !(date == latest && 24 * 3600 ≤ universal)
  skipBlank
  require (← get).isEmpty

end Timestamp

def isTimestamp (s : String) : Bool := (Timestamp.timestamp.run s.toList).isSome

end ResourceWatch.Text
