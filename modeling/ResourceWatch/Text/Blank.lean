/-!
# Blank characters

A setting that holds nothing but blank characters counts as not set, and blanks
around a number do not belong to it. Blank means the Unicode property
White_Space: the ASCII blanks, the next-line and no-break characters, and the
spaces and separators of the general punctuation block and beyond. The
zero-width space is not among them.
-/

namespace ResourceWatch.Text

/-- Whether a character has the Unicode property White_Space. -/
def isBlank (c : Char) : Bool :=
  let n := c.toNat
  (0x9 ≤ n && n ≤ 0xd) || n == 0x20 || n == 0x85 || n == 0xa0 || n == 0x1680 ||
    (0x2000 ≤ n && n ≤ 0x200a) || n == 0x2028 || n == 0x2029 || n == 0x202f ||
    n == 0x205f || n == 0x3000

def trimChars (cs : List Char) : List Char :=
  ((cs.dropWhile isBlank).reverse.dropWhile isBlank).reverse

/-- The text without the blanks at both ends. -/
def trim (s : String) : String := String.ofList (trimChars s.toList)

/-- Whether nothing is left once blanks are taken away. -/
def isAllBlank (s : String) : Bool := s.toList.all isBlank

end ResourceWatch.Text
