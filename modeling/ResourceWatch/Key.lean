import ResourceWatch.Change.Reference

/-!
# Work-queue keys

The work queue holds texts. The key of an object is a fixed marker and then five
fields: group, version, kind, namespace and name, each after its length in bytes
and a colon. Lengths make every character free for use inside a field, so no two
objects share a key.

`ObjectKey.decode` accepts exactly the keys that `ObjectKey.encode` writes for
objects with a version, a kind and a name, and says of every other text what is
wrong with it.
-/

namespace ResourceWatch

/-- The length of a text in bytes when it is written in UTF-8. -/
def byteLength : List Char → Nat
  | [] => 0
  | c :: cs => c.utf8Size + byteLength cs

/-- Cut a text after its first `n` bytes. There is no such cut when the text is
shorter, or when it would fall inside a character. -/
def splitBytes : Nat → List Char → Option (List Char × List Char)
  | 0, cs => some ([], cs)
  | _ + 1, [] => none
  | n + 1, c :: cs =>
    if c.utf8Size ≤ n + 1 then
      (splitBytes (n + 1 - c.utf8Size) cs).map fun (taken, rest) => (c :: taken, rest)
    else none

/-- The object that a key stands for. -/
structure ObjectKey where
  /-- Its kind. -/
  gvk : Gvk
  /-- Its namespace; empty for objects of the whole cluster. -/
  ns : String
  /-- Its name. -/
  name : String
deriving DecidableEq, Repr, Inhabited

/-- Why a text is no key. -/
inductive KeyFault where
  | missingMarker
  | trailingData
  | missingSeparator
  | invalidLength (digits : String)
  | nonCanonicalLength (digits : String)
  | lengthOutOfRange
  | fieldTooShort
  | fieldCount (found : Nat)
  | emptyPart
deriving DecidableEq, Repr

namespace ObjectKey

/-- The text that every key begins with. -/
def marker : List Char := ['o', 'b', 'j', ':']

def fieldCount : Nat := 5

/-- One more than the largest length that a field may claim. -/
def lengthBound : Nat := Nat.pow 2 64

def fields (k : ObjectKey) : List (List Char) :=
  [k.gvk.group, k.gvk.version, k.gvk.kind, k.ns, k.name].map String.toList

/-- A field after its length and a colon. -/
def writeField (field : List Char) : List Char :=
  Nat.toDigits 10 (byteLength field) ++ ':' :: field

def encode (k : ObjectKey) : String :=
  String.ofList (marker ++ k.fields.flatMap writeField)

/-- The length that the text before a colon gives: decimal digits without a
needless zero in front, of a value that a length can have. -/
def readLength (digits : List Char) : Except KeyFault Nat :=
  if digits.isEmpty || !digits.all (fun c => '0' ≤ c && c ≤ '9') then
    .error (.invalidLength (String.ofList digits))
  else if 1 < digits.length && digits.head? == some '0' then
    .error (.nonCanonicalLength (String.ofList digits))
  else
    let n := digits.foldl (fun n c => 10 * n + (c.toNat - '0'.toNat)) 0
    if n < lengthBound then .ok n else .error .lengthOutOfRange

/-- The first field of a text, and the text after it. -/
def readField (cs : List Char) : Except KeyFault (List Char × List Char) :=
  match cs.span (· != ':') with
  | (_, []) => .error .missingSeparator
  | (digits, _ :: tail) => do
    let n ← readLength digits
    match splitBytes n tail with
    | some cut => .ok cut
    | none => .error .fieldTooShort

/-- All fields of a text, of which there may be at most `room`. -/
def readFields : Nat → List Char → Except KeyFault (List (List Char))
  | _, [] => .ok []
  | 0, _ :: _ => .error .trailingData
  | room + 1, c :: cs => do
    let (field, rest) ← readField (c :: cs)
    let fields ← readFields room rest
    return field :: fields

def ofFields : List (List Char) → Except KeyFault ObjectKey
  | [group, version, kind, ns, name] =>
    if version.isEmpty || kind.isEmpty || name.isEmpty then .error .emptyPart
    else .ok ⟨⟨.ofList group, .ofList version, .ofList kind⟩, .ofList ns, .ofList name⟩
  | fields => .error (.fieldCount fields.length)

def decode (raw : String) : Except KeyFault ObjectKey :=
  match marker.isPrefixOf? raw.toList with
  | none => .error .missingMarker
  | some rest => readFields fieldCount rest >>= ofFields

/-- The key of the object that a reference is about; none if its kind is not
known. -/
def ofReference? (r : Reference) : Option ObjectKey :=
  r.kind.map fun gvk => ⟨gvk, r.ns, r.name⟩

/-- The kind, then the namespace and name, for messages. -/
def text (k : ObjectKey) : String := k.gvk.text ++ " " ++ joinedName k.ns k.name

end ObjectKey

end ResourceWatch
