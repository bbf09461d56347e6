import ResourceWatch.Text.Unprinted

/-!
# Quoted text

Messages quote a piece of outside text so that its ends and its invisible
characters show. The text stands between double quotes; a double quote and a
backslash inside it are escaped, the usual control characters have their letter
escapes, and every other character that prints nothing by itself is written as
its code point in hexadecimal. All other characters, letters of any script
among them, stand as they are.
-/

namespace ResourceWatch.Text

/-- The lower-case hexadecimal digits of a number, most significant first. -/
def hexDigits (n : Nat) : List Char := Nat.toDigits 16 n

/-- Whether a character is written by its code point in quoted text. -/
def needsCodePoint (c : Char) : Bool :=
  if c.toNat < 0x80 then c.toNat < 0x20 || c.toNat == 0x7f else isUnprinted c

def quotedChar (c : Char) : List Char :=
  if c = '\x00' then ['\\', '0']
  else if c = '\t' then ['\\', 't']
  else if c = '\n' then ['\\', 'n']
  else if c = '\r' then ['\\', 'r']
  else if c = '"' then ['\\', '"']
  else if c = '\\' then ['\\', '\\']
  else if needsCodePoint c then ['\\', 'u', '\x7b'] ++ hexDigits c.toNat ++ ['\x7d']
  else [c]

def quoted (s : String) : String :=
  String.ofList ('"' :: s.toList.flatMap quotedChar ++ ['"'])

def quotedList (xs : List String) : String :=
  "[" ++ ", ".intercalate (xs.map quoted) ++ "]"

end ResourceWatch.Text
