/-!
# YAML tags

A tag is a run of bytes, because a text may write any byte of it after a percent
sign. It ends in front of its first zero byte, and it need not be the encoding of
a text.
-/

namespace ResourceWatch.Yaml

/-- A tag in full. -/
structure Tag where
  /-- Its bytes, none of which is zero. -/
  bytes : List UInt8
deriving DecidableEq, Repr, Inhabited

namespace Tag

/-- The bytes in front of the first zero byte. -/
def cut (bytes : List UInt8) : List UInt8 := bytes.takeWhile (· != 0)

/-- The tag with a stem and a suffix, each of which ends in front of its first
zero byte. -/
def joined (stem suffix : List UInt8) : Tag := ⟨cut stem ++ cut suffix⟩

def ofText (text : String) : Tag := ⟨cut text.toUTF8.toList⟩

/-- The text that the bytes of a tag encode, if they encode one. -/
def text? (t : Tag) : Option String := String.fromUTF8? ⟨t.bytes.toArray⟩

/-- Whether a tag begins with an exclamation mark, as those do that a document
makes up. -/
def isMarked (t : Tag) : Bool := t.bytes.head? == some 0x21

/-- Whether a tag is one that a document has made up: it is marked, and it is a
text. -/
def isOwn (t : Tag) : Bool := t.isMarked && t.text?.isSome

end Tag

end ResourceWatch.Yaml
