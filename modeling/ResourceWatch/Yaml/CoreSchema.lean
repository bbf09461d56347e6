import ResourceWatch.Text.Numeral
import ResourceWatch.Yaml.Cursor
import ResourceWatch.Yaml.Tag

/-!
# What a plain scalar stands for

The core schema gives a plain scalar a meaning by its text: nothing, a truth
value, a whole number, a number with a fraction, or the text itself. A number
with a leading zero is a text, and so is one too large for any number format.
-/

namespace ResourceWatch.Yaml

/-- The meaning of a plain scalar. -/
inductive Meaning where
  | null
  | bool (b : Bool)
  | int (n : Int)
  /-- A number with a fraction or an exponent, or too large for a whole one. -/
  | float
  | text
deriving DecidableEq, Repr

namespace CoreSchema

def isNullWord (s : String) : Bool := ["null", "Null", "NULL", "~"].contains s

def bool? (s : String) : Option Bool :=
  if ["true", "True", "TRUE"].contains s then some true
  else if ["false", "False", "FALSE"].contains s then some false
  else none

/-- The text without a sign in front. -/
def unsigned : List Char → List Char
  | '+' :: rest | '-' :: rest => rest
  | cs => cs

/-- Whether digits with a leading zero stand after at most one sign. Such a text
is no number. -/
def hasLeadingZero (cs : List Char) : Bool :=
  match unsigned cs with
  | '0' :: rest => !rest.isEmpty && rest.all Text.isDigit
  | _ => false

/-- Digits in a base, read as a number. -/
def digits? (base : Nat) (cs : List Char) : Option Nat :=
  if cs.isEmpty then none
  else (cs.mapM fun c => (Text.hexDigit? c).filter (· < base)).map
    (·.foldl (fun n d => base * n + d) 0)

/-- Digits with a mark of their base in front, or decimal digits. -/
def magnitude? : List Char → Option Nat
  | '0' :: 'x' :: rest => digits? 16 rest
  | '0' :: 'o' :: rest => digits? 8 rest
  | '0' :: 'b' :: rest => digits? 2 rest
  | cs => digits? 10 cs

/-- The whole number that a text stands for: it has at most one sign, no leading
zero, and room in 128 bits. -/
def int? (s : String) : Option Int :=
  let cs := s.toList
  if hasLeadingZero cs then none
  else match cs with
    | '-' :: rest => ((magnitude? rest).filter (· ≤ Nat.pow 2 127)).map fun n => -(n : Int)
    | _ =>
      let digits := match cs with
        | '+' :: rest => rest
        | _ => cs
      ((magnitude? digits).filter (· < Nat.pow 2 128)).map Int.ofNat

/-- The least magnitude that has no place among the double-precision numbers:
what lies half a step above the largest one, and beyond. -/
def floatLimit : Nat := Nat.pow 2 1024 - Nat.pow 2 970

/-- Whether `mantissa · 10 ^ exponent` is small enough for a double-precision
number. The length of the mantissa settles it without a large power, unless it
is close. -/
def isFinite (mantissa : Nat) (exponent : Int) : Bool :=
  let top := (Nat.toDigits 10 mantissa).length + exponent
  if mantissa == 0 || top ≤ 308 then true
  else if 310 ≤ top then false
  else if 0 ≤ exponent then mantissa * Nat.pow 10 exponent.toNat < floatLimit
  else mantissa < floatLimit * Nat.pow 10 (-exponent).toNat

/-- An exponent with its letter, if there is any: a number with at most one
sign. -/
def exponent? : List Char → Option Int
  | [] => some 0
  | c :: rest =>
    if c == 'e' || c == 'E' then
      match rest with
      | '-' :: digits => (digits? 10 digits).map fun n => -(n : Int)
      | '+' :: digits => (digits? 10 digits).map Int.ofNat
      | digits => (digits? 10 digits).map Int.ofNat
    else none

/-- Whether digits with at most one point, of which there is at least one, and
perhaps an exponent are written, and their value is small enough. -/
def isDecimal (cs : List Char) : Bool :=
  let whole := cs.takeWhile Text.isDigit
  let rest := cs.dropWhile Text.isDigit
  let (fraction, rest) := match rest with
    | '.' :: r => (r.takeWhile Text.isDigit, r.dropWhile Text.isDigit)
    | r => ([], r)
  let digits := whole ++ fraction
  match exponent? rest with
  | some e => !digits.isEmpty && isFinite (Text.digitsValue digits) (e - fraction.length)
  | none => false

/-- Whether a text is a number with a fraction, an infinity or no number at
all. -/
def isFloat (s : String) : Bool :=
  let words := [".inf", ".Inf", ".INF"]
  [".nan", ".NaN", ".NAN"].contains s || words.contains s ||
    (words.any fun w => s == "+" ++ w || s == "-" ++ w) || isDecimal (unsigned s.toList)

/-- The meaning of a plain scalar without a tag. -/
def meaning (s : String) : Meaning :=
  if s.isEmpty || isNullWord s then .null
  else match bool? s with
    | some b => .bool b
    | none =>
      match int? s with
      | some n => .int n
      | none => if !hasLeadingZero s.toList && isFloat s then .float else .text

end CoreSchema

/-- The tags that say of a scalar what it stands for. -/
inductive CoreTag where
  | null
  | bool
  | int
  | float
deriving DecidableEq, Repr

namespace CoreTag

/-- The tag of a name in full. -/
def ofName? : String → Option CoreTag
  | "tag:yaml.org,2002:null" => some .null
  | "tag:yaml.org,2002:bool" => some .bool
  | "tag:yaml.org,2002:int" => some .int
  | "tag:yaml.org,2002:float" => some .float
  | _ => none

/-- What a tag says, if it is one of the core schema. -/
def of? (t : Tag) : Option CoreTag := t.text?.bind ofName?

/-- What a text stands for under a tag, if it is of the kind that the tag says
it is. -/
def meaning? (t : CoreTag) (s : String) : Option Meaning :=
  match t with
  | .null => if CoreSchema.isNullWord s then some .null else none
  | .bool => (CoreSchema.bool? s).map .bool
  | .int => (CoreSchema.int? s).map .int
  | .float => if CoreSchema.isFloat s then some .float else none

end CoreTag

/-- The meaning of a scalar with a tag or without one. A tag that the document has
made up gives it none. Any other tag outside the schema leaves it the text that it
is, except that a plain scalar means under a marked tag what it means without. -/
def scalarMeaning? (tag : Option Tag) (text : String) (plain : Bool) : Option Meaning :=
  let untagged := if plain then CoreSchema.meaning text else .text
  match tag with
  | none => some untagged
  | some tag =>
    if tag.isOwn then none
    else match CoreTag.of? tag with
      | some t => t.meaning? text
      | none => some (if tag.isMarked then untagged else .text)

end ResourceWatch.Yaml
