import ResourceWatch.Text.Numeral

/-!
# The characters of a YAML text

A YAML text is read from front to back. A cursor stands somewhere in it and
knows how many bytes, lines and columns it has passed.
Everything that reads is a `Scan`: it moves the cursor, or it finds that the
text is no YAML.
-/

namespace ResourceWatch.Yaml

/-- Whether a character may stand in a YAML text at all. Control characters may
not, but for the tab and the line breaks. -/
def isAdmitted (c : Char) : Bool :=
  let n := c.toNat
  n == 0x9 || n == 0xa || n == 0xd || (0x20 ≤ n && n ≤ 0x7e) || n == 0x85 ||
    (0xa0 ≤ n && n ≤ 0xd7ff) || (0xe000 ≤ n && n ≤ 0xfffd) || 0x10000 ≤ n

/-- Whether a character ends a line. A carriage return with a line feed after it
ends one line, not two. -/
def isBreak (c : Char) : Bool :=
  c == '\n' || c == '\r' || c == '\x85' || c == '\u2028' || c == '\u2029'

def isSpace (c : Char) : Bool := c == ' ' || c == '\t'

/-- Whether a character may stand in the name of an anchor, a directive or a tag
handle. -/
def isWord (c : Char) : Bool :=
  ('0' ≤ c && c ≤ '9') || ('A' ≤ c && c ≤ 'Z') || ('a' ≤ c && c ≤ 'z') || c == '_' || c == '-'

structure Mark where
  /-- How many bytes stand before it. -/
  index : Nat := 0
  /-- How many lines end before it. -/
  line : Nat := 0
  /-- How many characters of its line stand before it. -/
  column : Nat := 0
deriving DecidableEq, Repr, Inhabited

/-- A place in a text, and the text from there on. -/
structure Cursor where
  /-- The place. -/
  mark : Mark := {}
  /-- The characters from there on. -/
  rest : List Char
deriving DecidableEq, Repr, Inhabited

/-- What moves a cursor, or finds that the text is no YAML. It is given how many
steps a walk over the whole text may take. -/
abbrev Scan := ReaderT Nat (StateT Cursor Option)

namespace Scan

def orFail {α : Type} (a : Option α) : Scan α := fun _ => StateT.lift a

/-- The text is no YAML. -/
def fail {α : Type} : Scan α := orFail none

/-- The text is no YAML unless this holds. -/
def require (p : Bool) : Scan Unit := if p then pure () else fail

/-- How many steps a walk over the whole text may take. -/
def patience : Scan Nat := read

def mark : Scan Mark := return (← get).mark

/-- The character that is `n` places ahead, if the text goes on so far. -/
def peek (n : Nat) : Scan (Option Char) := return (← get).rest[n]?

def sees (c : Char) : Scan Bool := return (← peek 0) == some c

/-- Whether the character that is `n` places ahead has a property; the end of
the text has it too. -/
def endsAt (n : Nat) (p : Char → Bool) : Scan Bool := return ((← peek n).map p).getD true

/-- Whether a space, a tab, a line break or the end of the text is `n` places
ahead. -/
def blankAt (n : Nat) : Scan Bool := endsAt n fun c => isSpace c || isBreak c

/-- How many bytes characters take. -/
def byteCount (cs : List Char) : Nat := cs.foldl (fun n c => n + c.utf8Size) 0

/-- Pass `n` characters, none of which ends a line. -/
def skip (n : Nat) : Scan Unit :=
  modify fun c =>
    let m := c.mark
    { mark := { m with index := m.index + byteCount (c.rest.take n), column := m.column + n }
      rest := c.rest.drop n }

/-- Pass the characters up to the first one without a property. None of those
with it ends a line. -/
def takeWhile (p : Char → Bool) : Scan String := do
  let taken := (← get).rest.takeWhile p
  skip taken.length
  return String.ofList taken

/-- Pass a line break, if one is next. The answer is what it counts for: a line
feed, except that the line and paragraph separators count for themselves. -/
def lineBreak : Scan String := do
  let c ← get
  let next (bytes : Nat) (rest : List Char) : Cursor :=
    { mark := { index := c.mark.index + bytes, line := c.mark.line + 1, column := 0 }, rest }
  match c.rest with
  | '\r' :: '\n' :: rest => set (next 2 rest); return "\n"
  | b :: rest =>
    if isBreak b then
      set (next b.utf8Size rest)
      return if b == '\u2028' || b == '\u2029' then String.singleton b else "\n"
    else return ""
  | [] => return ""

/-- Pass a comment, if one is next. -/
def comment : Scan Unit := do
  if ← sees '#' then discard (takeWhile fun c => !isBreak c)

/-- Pass what is left of a line: blanks, perhaps a comment, and the line
break. -/
def restOfLine : Scan Unit := do
  discard (takeWhile isSpace)
  comment
  require (← endsAt 0 isBreak)
  discard lineBreak

/-- Whether a line begins here with one character three times and nothing
adjoining. -/
def triple (c : Char) : Scan Bool := do
  let cursor ← get
  let three := cursor.rest.take 3
  return cursor.mark.column == 0 && three == [c, c, c] && (← blankAt 3)

/-- Whether a line begins here that starts or ends a document. -/
def documentMark : Scan Bool := return (← triple '-') || (← triple '.')

end Scan

end ResourceWatch.Yaml
