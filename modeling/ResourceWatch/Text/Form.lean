/-!
# Form parameters

A form writes its parameters in a small alphabet: ASCII letters, ASCII digits and
four signs stand for themselves, a space is written as a plus sign, and every
other byte by its two hexadecimal digits after a percent sign.
-/

namespace ResourceWatch.Text

/-- Whether a byte stands for itself in a form. -/
def isFormByte (b : UInt8) : Bool :=
  let c := Char.ofNat b.toNat
  c.isAlphanum || c == '*' || c == '-' || c == '.' || c == '_'

def upperHexDigit (n : Nat) : Char := (Nat.digitChar n).toUpper

def formByte (b : UInt8) : List Char :=
  if isFormByte b then [Char.ofNat b.toNat]
  else if b == 0x20 then ['+']
  else ['%', upperHexDigit (b.toNat / 16), upperHexDigit (b.toNat % 16)]

def formEncoded (s : String) : String :=
  String.ofList (s.toUTF8.toList.flatMap formByte)

end ResourceWatch.Text
