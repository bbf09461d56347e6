import ResourceWatch.Yaml.Cursor

/-!
# Scalars

How the text of a scalar is read. Plain and quoted scalars may run over several
lines: a single line break between two lines reads as a space, and of several
the first one is dropped. Block scalars keep their lines, or fold them by the
same rule where no line begins with a blank.
-/

namespace ResourceWatch.Yaml

/-- The blanks and line breaks between two words. -/
structure Gap where
  /-- The blanks, if there is no line break. -/
  blanks : String := ""
  /-- Whether a line has ended. -/
  broken : Bool := false
  /-- What the first line break counts for, unless it was escaped. -/
  first : String := ""
  /-- What the other line breaks count for. -/
  others : String := ""
deriving DecidableEq, Repr, Inhabited

def Gap.text (g : Gap) : String :=
  if !g.broken then g.blanks
  else if g.first == "\n" then if g.others.isEmpty then " " else g.others
  else g.first ++ g.others

namespace Scan

/-- Pass a gap. On a line after the first one no tab may stand left of column
`indent`. -/
def gap (indent : Nat) : Nat → Gap → Scan Gap
  | 0, g => return g
  | fuel + 1, g => do
    match ← peek 0 with
    | some c =>
      if isSpace c then
        require !(g.broken && (← mark).column < indent && c == '\t')
        skip 1
        gap indent fuel (if g.broken then g else { g with blanks := g.blanks.push c })
      else if isBreak c then
        let b ← lineBreak
        gap indent fuel
          (if g.broken then { g with others := g.others ++ b }
          else { g with blanks := "", broken := true, first := b })
      else return g
    | none => return g

/-! ## Plain scalars -/

/-- Whether a character opens or closes a bracketed collection or parts its
items. -/
def isFlowIndicator (c : Char) : Bool :=
  c == ',' || c == '[' || c == ']' || c == '\x7b' || c == '\x7d'

/-- Pass the characters of one word of a plain scalar. In a flow collection
(`flow`) the marks of collections end it, and a colon right before one is an
error. -/
def plainWord (flow : Bool) : Nat → String → Scan (String)
  | 0, acc => return acc
  | fuel + 1, acc => do
    match ← peek 0 with
    | none => return acc
    | some c =>
      if isSpace c || isBreak c then return acc
      let next ← peek 1
      require !(flow && c == ':' && (next.map fun d => d == '?' || isFlowIndicator d).getD false)
      if c == ':' && (← blankAt 1) then return acc
      if flow && isFlowIndicator c then return acc
      skip 1
      plainWord flow fuel (acc.push c)

/-- Pass a plain scalar from a word on. The answer is its text, and whether it
ended after a line break. -/
def plainFrom (flow : Bool) (indent : Nat) : Nat → Gap → String → Scan (String × Bool)
  | 0, g, acc => return (acc, g.broken)
  | fuel + 1, g, acc => do
    if (← documentMark) || (← sees '#') then return (acc, g.broken)
    let word ← plainWord flow (← patience) ""
    let acc := if word.isEmpty then acc else acc ++ g.text ++ word
    let before := if word.isEmpty then g else {}
    if (← peek 0).any fun c => isSpace c || isBreak c then
      let g ← gap indent (← patience) before
      if !flow && (← mark).column < indent then return (acc, g.broken)
      plainFrom flow indent fuel g acc
    else return (acc, before.broken)

/-- Pass a plain scalar. On the lines after its first one it stands no further
left than column `indent`, unless it is in a flow collection. -/
def plain (flow : Bool) (indent : Nat) : Scan (String × Bool) := do
  plainFrom flow indent (← patience) {} ""

/-! ## Quoted scalars -/

def escape? : Char → Option Char
  | '0' => some '\x00'
  | 'a' => some '\x07'
  | 'b' => some '\x08'
  | 't' | '\t' => some '\t'
  | 'n' => some '\n'
  | 'v' => some '\x0b'
  | 'f' => some '\x0c'
  | 'r' => some '\r'
  | 'e' => some '\x1b'
  | ' ' => some ' '
  | '\x22' => some '\x22'
  | '/' => some '/'
  | '\\' => some '\\'
  | 'N' => some '\x85'
  | '_' => some '\xa0'
  | 'L' => some '\u2028'
  | 'P' => some '\u2029'
  | _ => none

/-- How many hexadecimal digits follow a backslash and a letter. -/
def escapeDigits? : Char → Option Nat
  | 'x' => some 2
  | 'u' => some 4
  | 'U' => some 8
  | _ => none

/-- The character with a number. -/
def charOf? (n : Nat) : Option Char := if n.isValidChar then some (Char.ofNat n) else none

/-- Pass an escape sequence. -/
def escape : Scan Char := do
  let some letter ← peek 1 | fail
  if let some c := escape? letter then
    skip 2
    return c
  let some digits := escapeDigits? letter | fail
  skip 2
  let code := (← get).rest.take digits
  let some values := code.mapM Text.hexDigit? | fail
  require (code.length == digits)
  let some c := charOf? (values.foldl (fun n d => 16 * n + d) 0) | fail
  skip digits
  return c

/-- Pass the characters of one word of a quoted scalar. The answer also says
whether an escaped line break ended it. -/
def quotedWord (single : Bool) : Nat → String → Scan (String × Bool)
  | 0, acc => return (acc, false)
  | fuel + 1, acc => do
    match ← peek 0 with
    | none => return (acc, false)
    | some c =>
      if isSpace c || isBreak c then return (acc, false)
      if single then
        if c == '\x27' then
          if (← peek 1) == some '\x27' then
            skip 2
            quotedWord single fuel (acc.push '\x27')
          else return (acc, false)
        else
          skip 1
          quotedWord single fuel (acc.push c)
      else if c == '\x22' then return (acc, false)
      else if c == '\\' then
        if (← peek 1).any isBreak then
          skip 1
          discard lineBreak
          return (acc, true)
        let e ← escape
        quotedWord single fuel (acc.push e)
      else
        skip 1
        quotedWord single fuel (acc.push c)

/-- Pass a quoted scalar from a word on, up to and with its closing quote. -/
def quotedFrom (single : Bool) : Nat → String → Scan (String)
  | 0, _ => fail
  | fuel + 1, acc => do
    require !(← documentMark)
    require (← peek 0).isSome
    let (word, escaped) ← quotedWord single (← patience) ""
    let acc := acc ++ word
    if ← sees (if single then '\x27' else '\x22') then
      skip 1
      return acc
    let g ← gap 0 (← patience) { broken := escaped }
    quotedFrom single fuel (acc ++ g.text)

def quoted (single : Bool) : Scan (String) := do
  skip 1
  quotedFrom single (← patience) ""

/-! ## Block scalars -/

/-- What becomes of the line breaks at the end of a block scalar. -/
inductive Chomp where
  | strip
  | clip
  | keep
deriving DecidableEq, Repr

/-- Pass a mark of chomping, if one is next. -/
def chomp? : Scan (Option Chomp) := do
  if ← sees '+' then skip 1; return some .keep
  else if ← sees '-' then skip 1; return some .strip
  else return none

/-- Pass a digit of indentation, if one is next. A zero is an error. -/
def indentDigit? : Scan (Option Nat) := do
  match ← peek 0 with
  | some c =>
    if '0' ≤ c && c ≤ '9' then
      require (c != '0')
      skip 1
      return some (c.toNat - '0'.toNat)
    else return none
  | none => return none

/-- Pass the marks after the bar or the angle bracket, in either order. -/
def blockHeader : Scan (Chomp × Option Nat) := do
  match ← chomp? with
  | some c => return (c, ← indentDigit?)
  | none =>
    match ← indentDigit? with
    | some n => return ((← chomp?).getD .clip, some n)
    | none => return (.clip, none)

/-- Pass indentation and empty lines. Where the indentation is not known yet no
space is left standing. The answer is what the line breaks count for, and the
rightmost column reached. -/
def blockBreaks (indent : Option Nat) : Nat → Nat → String → Scan (Nat × String)
  | 0, deepest, acc => return (deepest, acc)
  | fuel + 1, deepest, acc => do
    let column := (← mark).column
    let spaces := (← get).rest.takeWhile (· == ' ')
    skip (match indent with
      | some n => Nat.min spaces.length (n - column)
      | none => spaces.length)
    let column := (← mark).column
    let deepest := Nat.max deepest column
    require !((indent.map fun n => decide (column < n)).getD true && (← sees '\t'))
    let b ← lineBreak
    if b.isEmpty then return (deepest, acc)
    blockBreaks indent fuel deepest (acc ++ b)

/-- Pass the lines of a block scalar. `pending` is what the break of the line
before counts for, `more` what the empty lines after it count for, and `blank`
says whether that line began with a blank. The answer is the text with what is
pending in the end. -/
def blockLines (folded : Bool) (indent : Nat) :
    Nat → String → String → Bool → String → Scan (String × String × String)
  | 0, pending, more, _, acc => return (acc, pending, more)
  | fuel + 1, pending, more, blank, acc => do
    let next ← peek 0
    if (← mark).column != indent || next.isNone then return (acc, pending, more)
    let blankNow := next.any isSpace
    let joint :=
      if folded && pending == "\n" && !blank && !blankNow then
        if more.isEmpty then " " else ""
      else pending
    let line ← takeWhile fun c => !isBreak c
    let acc := acc ++ joint ++ more ++ line
    let pending ← lineBreak
    let (_, more) ← blockBreaks (some indent) (← patience) 0 ""
    blockLines folded indent fuel pending more blankNow acc

/-- Pass a block scalar inside a block whose items stand in column `parent` or
further right. -/
def block (folded : Bool) (parent : Option Nat) : Scan (String) := do
  skip 1
  let (chomp, increment) ← blockHeader
  restOfLine
  let known := increment.map (parent.getD 0 + ·)
  let (deepest, more) ← blockBreaks known (← patience) 0 ""
  let indent := known.getD (Nat.max deepest (Nat.max 1 ((parent.map (· + 1)).getD 0)))
  let (text, pending, more) ← blockLines folded indent (← patience) "" more false ""
  return match chomp with
    | .strip => text
    | .clip => text ++ pending
    | .keep => text ++ pending ++ more

end Scan

end ResourceWatch.Yaml
