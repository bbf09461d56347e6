import ResourceWatch.Double.Shortest
import ResourceWatch.Json

/-!
# The text of a JSON value

A value is written without blanks. In a text value the quote, the backslash and
the control characters are escaped, and everything else stands as it is.
-/

namespace ResourceWatch.Json

def hexDigit (n : Nat) : Char := Nat.digitChar n

def writtenChar (c : Char) : List Char :=
  match c with
  | '"' => ['\\', '"']
  | '\\' => ['\\', '\\']
  | '\x08' => ['\\', 'b']
  | '\x0c' => ['\\', 'f']
  | '\n' => ['\\', 'n']
  | '\r' => ['\\', 'r']
  | '\t' => ['\\', 't']
  | c =>
    if c.toNat < 0x20 then
      ['\\', 'u', '0', '0', hexDigit (c.toNat / 16), hexDigit (c.toNat % 16)]
    else [c]

def writtenText (s : String) : String :=
  String.ofList ('"' :: s.toList.foldr (fun c rest => writtenChar c ++ rest) ['"'])

mutual

def text : Json → String
  | .null => "null"
  | .bool b => toString b
  | .int n => toString n
  | .float x => x.text
  | .str s => writtenText s
  | .arr items => "[" ++ ",".intercalate (itemTexts items) ++ "]"
  | .obj members => "\x7b" ++ ",".intercalate (memberTexts members) ++ "\x7d"

def itemTexts : List Json → List String
  | [] => []
  | a :: as => text a :: itemTexts as

def memberTexts : List (String × Json) → List String
  | [] => []
  | (name, a) :: as => (writtenText name ++ ":" ++ text a) :: memberTexts as

end

end ResourceWatch.Json
