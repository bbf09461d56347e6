import ResourceWatch.Yaml.Scalar
import ResourceWatch.Yaml.Token

/-!
# From text to tokens

Whether something is a key shows only at the colon after it. So the reader
remembers, for each bracket that is open and for the text around them, the last
place where a key may have begun, and puts the token for it in afterwards. A
block begins where something stands further right than the block around it, and
ends where a line begins further left.
-/

namespace ResourceWatch.Yaml

/-- A place where a key may have begun. -/
structure KeyStart where
  /-- How many tokens stand before it. -/
  number : Nat
  /-- The place in the text. -/
  mark : Mark
  /-- Whether the text is no YAML if it is no key. -/
  required : Bool
deriving DecidableEq, Repr, Inhabited

/-- What has been read so far. -/
structure Lexer where
  /-- The tokens, the last one first. -/
  tokens : List Token := []
  /-- How many tokens there are. -/
  count : Nat := 0
  /-- The columns of the blocks that are open, the innermost one first. -/
  indents : List Nat := []
  /-- Where the next key may have begun. -/
  key : Option KeyStart := none
  /-- The same for what is around each open bracket, the innermost one first. -/
  outer : List (Option KeyStart) := []
  /-- Whether a key may begin here. -/
  keyAllowed : Bool := true
deriving Repr, Inhabited

/-- How many bytes a key may have that is not marked as one. -/
def keyReach : Nat := 1024

namespace Lexer

/-- Whether a bracket is open. -/
def inFlow (l : Lexer) : Bool := !l.outer.isEmpty

def push (l : Lexer) (t : Token) : Lexer :=
  { l with tokens := t :: l.tokens, count := l.count + 1 }

/-- Put a token in behind the first `number` ones. -/
def insertAt (l : Lexer) (number : Nat) (t : Token) : Lexer :=
  let later := l.count - number
  { l with
    tokens := l.tokens.take later ++ t :: l.tokens.drop later
    count := l.count + 1 }

/-- Whether a column is further right than the innermost block. -/
def isDeeper (l : Lexer) (column : Nat) : Bool :=
  match l.indents with
  | [] => true
  | indent :: _ => indent < column

/-- Begin a block in a column behind the first `number` tokens, unless one
reaches as far right. -/
def openBlock (l : Lexer) (column number : Nat) (t : Token) : Lexer :=
  if l.inFlow || !l.isDeeper column then l
  else { l.insertAt number t with indents := column :: l.indents }

/-- End the blocks that a predicate on their columns holds of. -/
def closeBlocks (l : Lexer) (p : Nat → Bool) : Lexer :=
  if l.inFlow then l
  else
    let closed := (l.indents.takeWhile p).length
    { (List.replicate closed Token.blockEnd).foldl push l with indents := l.indents.drop closed }

/-- Forget where a key may have begun. One that had to be a key is an error. -/
def dropKey (l : Lexer) : Option Lexer :=
  if (l.key.map (·.required)).getD false then none else some { l with key := none }

def saveKey (l : Lexer) (m : Mark) : Option Lexer :=
  if l.keyAllowed then do
    let required := !l.inFlow && l.indents.head? == some m.column
    return { ← l.dropKey with key := some ⟨l.count, m, required⟩ }
  else some l

/-- Whether a key that began at `k` cannot reach to `m`. -/
def isStale (m : Mark) (k : KeyStart) : Bool :=
  k.mark.line < m.line || k.mark.index + keyReach < m.index

/-- Forget where a key may have begun if none can reach from there to `m`. One that
had to be a key is an error. What is around the open brackets is looked at when
they are closed. -/
def dropStale (l : Lexer) (m : Mark) : Option Lexer :=
  if l.key.any (isStale m) then l.dropKey else some l

end Lexer

namespace Scan

/-- Pass blanks, comments and line breaks up to the next token. A line may begin
with a byte order mark. On a line where a key may begin a tab is no blank. The
answer is whether a key may begin. -/
def toToken (flow : Bool) : Nat → Bool → Scan Bool
  | 0, keyAllowed => return keyAllowed
  | fuel + 1, keyAllowed => do
    if (← mark).column == 0 && (← sees '\ufeff') then skip 1
    discard (takeWhile fun c => c == ' ' || ((flow || !keyAllowed) && c == '\t'))
    comment
    let b ← lineBreak
    if b.isEmpty then return keyAllowed
    toToken flow fuel (keyAllowed || !flow)

/-- Pass a number of up to nine digits. -/
def versionNumber : Scan Nat := do
  let digits ← takeWhile fun c => '0' ≤ c && c ≤ '9'
  require (0 < digits.length && digits.length ≤ 9)
  return digits.toList.foldl (fun n c => 10 * n + (c.toNat - '0'.toNat)) 0

def bytesOf (text : String) : List UInt8 := text.toUTF8.toList

/-- Pass what stands for a tag, and for the stem of one: the characters of a
resource identifier, with bytes after percent signs. Such bytes have to come as
those of a character do, in their number and in the bits that mark them, but it
may be one that there is not. In a bracketed tag (`wide`) commas and square
brackets belong to it. -/
def identifier (wide : Bool) : Nat → List UInt8 → Scan (List UInt8)
  | 0, acc => return acc
  | fuel + 1, acc => do
    match ← peek 0 with
    | none => return acc
    | some c =>
      if c == '%' then
        identifier wide fuel (acc ++ (← escapedChar))
      else if isWord c || ";/?:@&=+$.!~*'()".toList.contains c ||
          (wide && [',', '[', ']'].contains c) then
        skip 1
        identifier wide fuel (acc ++ [c.toUInt8])
      else return acc
where
  /-- Pass a byte. -/
  escapedByte : Scan UInt8 := do
    match (← get).rest with
    | '%' :: h :: l :: _ =>
      let some h := Text.hexDigit? h | fail
      let some l := Text.hexDigit? l | fail
      skip 3
      return UInt8.ofNat (16 * h + l)
    | _ => fail
  /-- Pass a byte that continues a character. -/
  trailingByte : Scan UInt8 := do
    let b ← escapedByte
    require (b / 64 == 2)
    return b
  /-- Pass the bytes of a character. -/
  escapedChar : Scan (List UInt8) := do
    let b ← escapedByte
    let trailing ←
      if b < 0x80 then pure 0
      else if b / 32 == 6 then pure 1
      else if b / 16 == 14 then pure 2
      else if b / 8 == 30 then pure 3
      else fail
    return b :: (← (List.replicate trailing trailingByte).mapM id)

/-- Pass a tag handle: an exclamation mark, a name, and perhaps another one. -/
def tagHandle : Scan String := do
  require (← sees '!')
  skip 1
  let name ← takeWhile isWord
  if ← sees '!' then
    skip 1
    return "!" ++ name ++ "!"
  else return "!" ++ name

def directive : Scan Token := do
  skip 1
  let name ← takeWhile isWord
  require (!name.isEmpty && (← blankAt 0))
  let token ←
    if name == "YAML" then do
      discard (takeWhile isSpace)
      let major ← versionNumber
      require (← sees '.')
      skip 1
      pure (Token.version major (← versionNumber))
    else if name == "TAG" then do
      discard (takeWhile isSpace)
      let handle ← tagHandle
      require (handle == "!" || handle.endsWith "!")
      require ((← peek 0).any isSpace)
      discard (takeWhile isSpace)
      let stem ← identifier true (← patience) []
      require (!stem.isEmpty && (← blankAt 0))
      pure (Token.tagHandle handle stem)
    else fail
  restOfLine
  return token

def anchorName : Scan String := do
  skip 1
  let name ← takeWhile isWord
  require (!name.isEmpty)
  require ((← blankAt 0) || ((← peek 0).any fun c =>
    ['?', ':', ',', ']', '\x7d', '%', '@', '\x60'].contains c))
  return name

def tag (flow : Bool) : Scan Token := do
  let (handle, suffix) ←
    if (← peek 1) == some '<' then do
      skip 2
      let suffix ← identifier true (← patience) []
      require (!suffix.isEmpty && (← sees '>'))
      skip 1
      pure ("", suffix)
    else do
      let handle ← tagHandle
      if handle.length > 1 && handle.endsWith "!" then
        let suffix ← identifier false (← patience) []
        require (!suffix.isEmpty)
        pure (handle, suffix)
      else
        let suffix ← identifier false (← patience) (bytesOf (String.ofList (handle.toList.drop 1)))
        pure (if (Tag.cut suffix).isEmpty then ("", bytesOf "!") else ("!", suffix))
  require ((flow && (← sees ',')) || (← blankAt 0))
  return .tag handle suffix

end Scan

namespace Lexer

/-- The next token is one of the whole text: it ends all blocks. -/
def topLevel (l : Lexer) (read : Scan Token) : Scan Lexer := do
  let l ← Scan.orFail (l.closeBlocks fun _ => true).dropKey
  return { l with keyAllowed := false }.push (← read)

def openFlow (l : Lexer) (t : Token) : Scan Lexer := do
  let l ← Scan.orFail (l.saveKey (← Scan.mark))
  Scan.skip 1
  return { l with key := none, outer := l.key :: l.outer, keyAllowed := true }.push t

def closeFlow (l : Lexer) (t : Token) : Scan Lexer := do
  let l ← Scan.orFail l.dropKey
  Scan.skip 1
  let (key, outer) := match l.outer with
    | [] => (none, [])
    | k :: ks => (k, ks)
  return { l with key, outer, keyAllowed := false }.push t

/-- A mark of one character after which a key may begin. In a block it may be
that a block begins with it. -/
def indicator (l : Lexer) (t : Token) (block : Option Token) (allow : Bool) : Scan Lexer := do
  let column := (← Scan.mark).column
  Scan.require (l.inFlow || l.keyAllowed || block.isNone)
  let l := match block with
    | some b => l.openBlock column l.count b
    | none => l
  let l ← Scan.orFail l.dropKey
  Scan.skip 1
  return { l with keyAllowed := allow }.push t

/-- A colon. What may have been a key is one. -/
def value (l : Lexer) : Scan Lexer :=
  match l.key with
  | some k => do
    Scan.skip 1
    let l := (l.insertAt k.number .key).openBlock k.mark.column k.number .blockMapping
    return { l with key := none, keyAllowed := false }.push .value
  | none => l.indicator .value (some .blockMapping) (!l.inFlow)

/-- Something that a key may begin with. -/
def content (l : Lexer) (read : Scan Token) : Scan Lexer := do
  let l ← Scan.orFail (l.saveKey (← Scan.mark))
  return { l with keyAllowed := false }.push (← read)

def blockScalar (l : Lexer) (folded : Bool) : Scan Lexer := do
  let l ← Scan.orFail l.dropKey
  let text ← Scan.block folded l.indents.head?
  return { l with keyAllowed := true }.push (.scalar text false)

def plainScalar (l : Lexer) : Scan Lexer := do
  let l ← Scan.orFail (l.saveKey (← Scan.mark))
  let (text, broken) ← Scan.plain l.inFlow ((l.indents.head?.map (· + 1)).getD 0)
  return { l with keyAllowed := broken }.push (.scalar text true)

/-- Characters that no plain scalar begins with, but for those in the next
list. -/
def marks : List Char :=
  ['-', '?', ':', ',', '[', ']', '\x7b', '\x7d', '#', '&', '*', '!', '|', '>', '\x27', '\x22', '%',
    '@', '\x60']

def next (l : Lexer) (c : Char) : Scan Lexer := do
  let column := (← Scan.mark).column
  let flow := l.inFlow
  let apart ← Scan.blankAt 1
  if column == 0 && c == '%' then l.topLevel Scan.directive
  else if ← Scan.triple '-' then l.topLevel do Scan.skip 3; return .documentStart
  else if ← Scan.triple '.' then l.topLevel do Scan.skip 3; return .documentEnd
  else if c == '[' then l.openFlow .flowSequence
  else if c == '\x7b' then l.openFlow .flowMapping
  else if c == ']' then l.closeFlow .flowSequenceEnd
  else if c == '\x7d' then l.closeFlow .flowMappingEnd
  else if c == ',' then l.indicator .flowEntry none true
  else if c == '-' && apart then l.indicator .blockEntry (some .blockSequence) true
  else if c == '?' && (flow || apart) then l.indicator .key (some .blockMapping) (!flow)
  else if c == ':' && (flow || apart) then l.value
  else if c == '*' then l.content (return .alias (← Scan.anchorName))
  else if c == '&' then l.content (return .anchor (← Scan.anchorName))
  else if c == '!' then l.content (Scan.tag flow)
  else if c == '|' && !flow then l.blockScalar false
  else if c == '>' && !flow then l.blockScalar true
  else if c == '\x27' then l.content (return .scalar (← Scan.quoted true) false)
  else if c == '\x22' then l.content (return .scalar (← Scan.quoted false) false)
  else if !(isSpace c || marks.contains c) || (c == '-' && !(← Scan.peek 1).any isSpace) ||
      (!flow && (c == '?' || c == ':') && !apart) then l.plainScalar
  else Scan.fail

def run : Nat → Lexer → Scan Lexer
  | 0, _ => Scan.fail
  | fuel + 1, l => do
    let keyAllowed ← Scan.toToken l.inFlow (← Scan.patience) l.keyAllowed
    let m ← Scan.mark
    let l ← Scan.orFail ({ l with keyAllowed }.dropStale m)
    let l := l.closeBlocks (m.column < ·)
    match ← Scan.peek 0 with
    | some c => run fuel (← l.next c)
    | none => Scan.orFail (l.closeBlocks fun _ => true).dropKey

end Lexer

/-- The tokens of a text. -/
def Token.ofText? (text : String) : Option (List Token) := do
  let chars := text.toList
  guard (chars.all isAdmitted)
  let limit := chars.length + 1
  let (l, _) ← ((Lexer.run limit {}).run limit).run { rest := chars }
  return l.tokens.reverse

end ResourceWatch.Yaml
