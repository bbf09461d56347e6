import ResourceWatch.Json.Number

/-!
# Reading JSON texts

A text is read from front to back, and what is left of it is all that a step
knows. A text that stops in the middle of a value is told apart from one that
breaks the grammar, because the first may be the cut end of a longer text.

A value may be read or passed over. A value that is read has room for a number of
lists and objects inside one another, its numbers have to be in range, and its
texts have to be made of characters. A value that is passed over is held to the
grammar alone.
-/

namespace ResourceWatch.Json

inductive ReadFault where
  /-- It stops before the value is complete. -/
  | ended
  /-- It breaks the grammar, or is no value of the form that is asked for. -/
  | malformed
deriving DecidableEq, Repr

/-- What takes characters from the front of a text, or finds a fault in it. It is
given how many steps a walk over the whole text may take. -/
abbrev Reading := ReaderT Nat (StateT (List Char) (Except ReadFault))

namespace Reading

/-- Whether a character may stand between the parts of a text. -/
def isBlank (c : Char) : Bool := c == ' ' || c == '\t' || c == '\n' || c == '\r'

/-- Pass over what stands between the parts. -/
def skipBlank : Reading Unit := modify (·.dropWhile isBlank)

/-- The next character, which is left where it is. -/
def peek : Reading Char := do
  match ← get with
  | [] => throw .ended
  | c :: _ => return c

def next : Reading Char := do
  let c ← peek
  modify List.tail
  return c

def expect (c : Char) : Reading Unit := do
  unless (← next) == c do throw .malformed

def expectAll (cs : List Char) : Reading Unit := cs.forM expect

/-- Take the next character if it is one of these. -/
def accept? (cs : List Char) : Reading (Option Char) := do
  match (← get).head? with
  | some c => if cs.contains c then modify List.tail; return some c else return none
  | none => return none

/-- How many steps a walk over the whole text may take. -/
def patience : Reading Nat := read

/-! ## Texts -/

/-- Take four hexadecimal digits for a code unit. The text has ended if less than
four bytes are left of it. -/
def codeUnit : Reading Nat := do
  let digits := (← get).take 4
  match digits.mapM Text.hexDigit? with
  | some values =>
    if digits.length < 4 then throw .ended
    modify (·.drop 4)
    return values.foldl (fun n d => 16 * n + d) 0
  | none => throw (if (String.ofList digits).utf8ByteSize < 4 then .ended else .malformed)

/-- The character that code units stand for, after the mark that they begin
with. One beyond the first 65536 is written as a leading unit and a trailing
one; neither may stand alone. -/
def codePoint : Reading Char := do
  let unit ← codeUnit
  if 0xdc00 ≤ unit ∧ unit ≤ 0xdfff then throw .malformed
  else if 0xd800 ≤ unit ∧ unit ≤ 0xdbff then
    expectAll ['\\', 'u']
    let trailing ← codeUnit
    unless 0xdc00 ≤ trailing ∧ trailing ≤ 0xdfff do throw .malformed
    return Char.ofNat (0x10000 + 0x400 * (unit - 0xd800) + (trailing - 0xdc00))
  else return Char.ofNat unit

/-- The character that a letter stands for behind a backslash. -/
def escape? : Char → Option Char
  | '"' => some '"'
  | '\\' => some '\\'
  | '/' => some '/'
  | 'b' => some '\x08'
  | 'f' => some '\x0c'
  | 'n' => some '\n'
  | 'r' => some '\r'
  | 't' => some '\t'
  | _ => none

/-- The characters of a text value up to its closing quote, behind those that were
read already, the last of which comes first. Control characters have to be
escaped. -/
def characters : (fuel : Nat) → (before : List Char) → Reading String
  | 0, _ => throw .ended
  | fuel + 1, before => do
    match ← next with
    | '"' => return String.ofList before.reverse
    | '\\' =>
      match ← next with
      | 'u' => characters fuel ((← codePoint) :: before)
      | letter =>
        let some c := escape? letter | throw .malformed
        characters fuel (c :: before)
    | c =>
      if c.toNat < 0x20 then throw .malformed
      characters fuel (c :: before)

def text : Reading String := do
  expect '"'
  characters (← patience) []

def passCharacters : (fuel : Nat) → Reading Unit
  | 0 => throw .ended
  | fuel + 1 => do
    match ← next with
    | '"' => return
    | '\\' =>
      match ← next with
      | 'u' => discard codeUnit
      | letter => if (escape? letter).isNone then throw .malformed
      passCharacters fuel
    | c =>
      if c.toNat < 0x20 then throw .malformed
      passCharacters fuel

def passText : Reading Unit := do
  expect '"'
  passCharacters (← patience)

/-! ## Numbers -/

def digits : Reading (List Char) := do
  unless Text.isDigit (← peek) do throw .malformed
  let cs := (← get).takeWhile Text.isDigit
  modify (·.dropWhile Text.isDigit)
  return cs

/-- Digits of which a zero is the only one or not the first one. -/
def wholeDigits : Reading (List Char) := do
  let cs ← digits
  if cs.head? = some '0' ∧ 1 < cs.length then throw .malformed
  return cs

def fraction? : Reading (Option (List Char)) := do
  if (← accept? ['.']).isSome then return some (← digits) else return none

def exponent? : Reading (Option Int) := do
  if (← accept? ['e', 'E']).isSome then
    let sign ← accept? ['+', '-']
    let n : Int := Text.digitsValue (← digits)
    return some (if sign = some '-' then -n else n)
  else return none

def numeral : Reading Numeral := do
  return {
    negative := (← accept? ['-']).isSome
    whole := ← wholeDigits
    fraction := ← fraction?
    exponent := ← exponent? }

def number : Reading Json := do
  let some j := (← numeral).value? | throw .malformed
  return j

/-- Pass over a number. Where the text stops inside it, it is no number. -/
def passNumber : Reading Unit :=
  tryCatch (discard numeral) fun _ => throw .malformed

/-! ## Words, lists and objects -/

/-- The characters of the word for nothing. -/
def nullWord : List Char := ['n', 'u', 'l', 'l']

/-- A truth value or the word for nothing, from its first character on. -/
def word : Reading Json := do
  match ← peek with
  | 'n' => expectAll nullWord; return .null
  | 't' => expectAll ['t', 'r', 'u', 'e']; return .bool true
  | _ => expectAll ['f', 'a', 'l', 's', 'e']; return .bool false

/-- A value that is neither a list nor an object. -/
def simple : Reading Json := do
  match ← peek with
  | '"' => return .str (← text)
  | 'n' | 't' | 'f' => word
  | _ => number

/-- A value has another form than the one that is asked for. One that is neither a
list nor an object is read to its end before that is found. -/
def refuse {α : Type} : Reading α := do
  discard simple
  throw .malformed

/-- Read item after item into what is known, up to the character that closes them.
There is one at least. -/
def itemsUpTo {σ : Type} (close : Char) (item : σ → Reading σ) : (fuel : Nat) → σ → Reading σ
  | 0, _ => throw .ended
  | fuel + 1, known => do
    skipBlank
    let known ← item known
    skipBlank
    let c ← next
    if c == close then return known
    else if c == ',' then itemsUpTo close item fuel known
    else throw .malformed

/-- Read items into what is known, from the character that opens them up to the
one that closes them. -/
def items {σ : Type} (opening close : Char) (item : σ → Reading σ) (known : σ) :
    Reading σ := do
  if (← peek) != opening then refuse
  expect opening
  skipBlank
  if (← peek) == close then
    expect close
    return known
  else itemsUpTo close item (← patience) known

def colon : Reading Unit := do skipBlank; expect ':'

def memberName : Reading String := do
  let name ← text
  colon
  return name

/-- A value. The values inside a list or an object are read by `part`; where
there is none, a value is neither. -/
def valueOf (part : Option (Reading Json)) : Reading Json := do
  skipBlank
  match ← peek, part with
  | '[', some part =>
    return .arr (← items '[' ']' (fun known => return (← part) :: known) []).reverse
  | '\x7b', some part =>
    let member (known : List (String × Json)) := do
      let name ← memberName
      return (name, ← part) :: known
    return .ofMembers (← items '\x7b' '\x7d' member []).reverse
  | _, _ => simple

/-- A value with room for so many lists and objects inside one another. -/
def value : (room : Nat) → Reading Json
  | 0 => valueOf none
  | room + 1 => valueOf (some (value room))

/-! ## Passing over -/

def passName : Reading Unit := do
  skipBlank
  passText
  colon

/-- Pass over what is left of a value: the lists and objects that are open are
given by the characters that close them, the innermost one first. At first a value
is due, or else (`due` is false) it has just been passed. -/
def passFrom : (fuel : Nat) → (due : Bool) → List Char → Reading Unit
  | 0, _, _ => throw .ended
  | _ + 1, false, [] => return
  | fuel + 1, false, close :: outer => do
    skipBlank
    let c ← next
    if c == close then passFrom fuel false outer
    else if c == ',' then
      if close == '\x7d' then passName
      passFrom fuel true (close :: outer)
    else throw .malformed
  | fuel + 1, true, outer => do
    skipBlank
    match ← peek with
    | '[' => opened fuel ']' outer
    | '\x7b' => opened fuel '\x7d' outer
    | '"' => passText; passFrom fuel false outer
    | 'n' | 't' | 'f' => discard word; passFrom fuel false outer
    | _ => passNumber; passFrom fuel false outer
where
  /-- Pass over a list or an object from its first character on. -/
  opened (fuel : Nat) (close : Char) (outer : List Char) : Reading Unit := do
    discard next
    skipBlank
    if (← peek) == close then
      expect close
      passFrom fuel false outer
    else
      if close == '\x7d' then passName
      passFrom fuel true (close :: outer)

def pass : Reading Unit := do passFrom (2 * (← patience)) true []

end Reading

/-- What reads a value of some form that has room for so many lists and objects
inside one another. -/
abbrev Decoder (α : Type) := (room : Nat) → Reading α

namespace Decoder

/-- How many lists and objects may stand inside one another in a text. -/
def depthLimit : Nat := 127

/-- Read a text, which holds nothing but a value with blanks around it. -/
def run {α : Type} (d : Decoder α) (text : List Char) : Except ReadFault α := do
  let (a, rest) ← ((d depthLimit).run (text.length + 1)).run text
  if rest.all Reading.isBlank then return a else throw .malformed

end Decoder

def ofText (text : String) : Except ReadFault Json := Decoder.run Reading.value text.toList

end ResourceWatch.Json
