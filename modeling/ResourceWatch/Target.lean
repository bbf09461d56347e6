/-!
# Request targets

A request names what it is for by a target. Mostly that is a path, perhaps with a
query after a question mark; a fragment after a number sign is let go. A target
may also be a whole address, with a scheme and an authority in front of the path,
or an authority alone, which has no path.
-/

namespace ResourceWatch

structure Target where
  /-- The path. -/
  path : String
  /-- What stands after the question mark, if there is one. -/
  query : Option String
deriving DecidableEq, Repr

namespace Target

/-- How many bytes a target may have. -/
def lengthLimit : Nat := 65534

def isPathChar (c : Char) : Bool := ' ' < c && c ∉ ['<', '>', '\x60']

def isQueryChar (c : Char) : Bool := ' ' < c && c ∉ ['"', '<', '>']

/-- The target that is a path with a query. -/
def ofPath? (cs : List Char) : Option Target := do
  let cs := cs.takeWhile (· != '#')
  let path := cs.takeWhile (· != '?')
  let query := (cs.dropWhile (· != '?')).drop 1
  guard (path.all isPathChar && query.all isQueryChar)
  return {
    path := String.ofList path
    query := if path.length < cs.length then some (String.ofList query) else none }

/-- The parameters of a target: the parts of its query that are not empty. -/
def parameters (t : Target) : List String :=
  (((t.query.getD "").toList.splitOn '&').map String.ofList).filter (!·.isEmpty)

/-- The text of a target with its parameters in order. -/
def text (t : Target) : String :=
  t.path ++ "?" ++ "&".intercalate (t.parameters.mergeSort fun a b => a ≤ b)

/-! ## Whole addresses -/

def isSchemeChar (c : Char) : Bool := c.isAlphanum || ['+', '-', '.', '~'].contains c

/-- How many characters a scheme may have. -/
def schemeLimit : Nat := 64

/-- What stands behind the scheme, where there is one. -/
def afterScheme? (cs : List Char) : Option (List Char) :=
  match cs.dropWhile isSchemeChar with
  | ':' :: '/' :: '/' :: rest => some rest
  | _ => none

/-- What has been seen of an authority. -/
structure Authority where
  /-- How many colons there were since the name of a user or a bracket ended. -/
  colons : Nat := 0
  /-- Whether a bracket has opened. -/
  opened : Bool := false
  /-- Whether a bracket has closed. -/
  closed : Bool := false
  /-- Whether there was a percent sign since then. -/
  escaped : Bool := false
  /-- Whether the name of a user has just ended. -/
  nameless : Bool := false
deriving DecidableEq, Repr

namespace Authority

/-- How many colons there may be in a row of numbers between brackets. -/
def colonLimit : Nat := 8

/-- Whether a character may stand anywhere in an authority. -/
def isPlain (c : Char) : Bool := c.isAlphanum || "!$&'()*+,-.;=_~".toList.contains c

/-- One more character of an authority has been seen. -/
def step (a : Authority) (c : Char) : Option Authority :=
  let a := { a with nameless := false }
  match c with
  | ':' => if a.colons < colonLimit then some { a with colons := a.colons + 1 } else none
  | '[' => if a.escaped || a.opened then none else some { a with opened := true }
  | ']' =>
    if !a.opened || a.closed then none
    else some { a with closed := true, colons := 0, escaped := false }
  | '@' => some { a with colons := 0, escaped := false, nameless := true }
  | '%' => some { a with escaped := true }
  | c => if isPlain c then some a else none

/-- Whether an authority may end here. Brackets have to be closed, one port may
be named, and escaped bytes belong into the name of a user. -/
def mayEnd (a : Authority) : Bool :=
  a.opened == a.closed && a.colons ≤ 1 && !a.nameless && !a.escaped

end Authority

def endsAuthority (c : Char) : Bool := c == '/' || c == '?' || c == '#'

/-- What stands behind the authority, and whether that is empty. There is nothing
if it is none. -/
def afterAuthority? (cs : List Char) : Option (List Char × Bool) := do
  let authority := cs.takeWhile (!endsAuthority ·)
  let read ← authority.foldlM Authority.step {}
  guard read.mayEnd
  return (cs.dropWhile (!endsAuthority ·), authority.isEmpty)

/-- The target that is an address, or an authority alone. -/
def ofAddress? (cs : List Char) : Option Target := do
  match afterScheme? cs with
  | some rest =>
    guard (cs.length ≤ rest.length + 3 + schemeLimit)
    let (rest, empty) ← afterAuthority? rest
    guard !empty
    let t ← ofPath? rest
    return if t.path.isEmpty then { t with path := "/" } else t
  | none =>
    let (rest, _) ← afterAuthority? cs
    guard rest.isEmpty
    return { path := "", query := none }

def ofText? (text : String) : Option Target :=
  if lengthLimit < text.utf8ByteSize then none
  else match text.toList with
    | [] => none
    | ['*'] => some { path := "*", query := none }
    | '/' :: rest => ofPath? ('/' :: rest)
    | cs => ofAddress? cs

end Target

end ResourceWatch
