import ResourceWatch.Yaml.Lexer

/-!
# YAML documents

A document is a tree of scalars, sequences and mappings, in which an alias
stands for a node that carries an anchor. A text holds at most one document.

Anchors have numbers: an anchor gets as its number how many different names have
been declared before it. An alias stands for the node that was declared last in
the document under the number which the name of the alias has where the alias
stands. As long as no name is declared twice these are the nodes that the names
suggest.
-/

namespace ResourceWatch.Yaml

/-- A node of a document. A tag is given in full. -/
inductive Node where
  /-- A scalar; `plain` if it is neither quoted nor a block. -/
  | scalar (tag : Option Tag) (text : String) (plain : Bool)
  | sequence (tag : Option Tag) (items : List Node)
  | mapping (tag : Option Tag) (entries : List (Node × Node))
  /-- What carries the anchor with a number. -/
  | alias (number : Nat)
deriving Repr, Inhabited

namespace Node

/-- The scalar that stands where nothing is written. -/
def missing : Node := .scalar none "" true

mutual

/-- The size of a node: one for a scalar or an alias, and two for a collection
beside what its parts have. -/
def size : Node → Nat
  | .scalar .. | .alias _ => 1
  | .sequence _ items => 2 + sizeOfItems items
  | .mapping _ entries => 2 + sizeOfEntries entries

def sizeOfItems : List Node → Nat
  | [] => 0
  | n :: ns => n.size + sizeOfItems ns

def sizeOfEntries : List (Node × Node) → Nat
  | [] => 0
  | (k, v) :: es => k.size + v.size + sizeOfEntries es

end

end Node

/-- A document. -/
structure Document where
  /-- What it holds, if there is anything at all. -/
  root : Option Node := none
  /-- The nodes with anchors, by the number of the anchor. -/
  anchored : List (Nat × Node) := []
deriving Repr, Inhabited

/-- What composing a document has found so far. -/
structure Composing where
  /-- The tokens that are left. -/
  tokens : List Token
  /-- What the tag handles stand for. -/
  handles : List (String × List UInt8) := []
  /-- The numbers of the anchors by name. -/
  numbers : List (String × Nat) := []
  /-- For each number the anchors that got it, as places in the order of all
  anchors, the last one first. -/
  holders : List (Nat × Nat) := []
  /-- How many anchors there were. -/
  anchors : Nat := 0
  /-- The nodes with anchors, by the place of the anchor. -/
  nodes : List (Nat × Node) := []
deriving Repr, Inhabited

/-- What takes tokens away, or finds that the text is no YAML. -/
abbrev Compose := StateT Composing Option

namespace Compose

def fail {α : Type} : Compose α := StateT.lift none

def peek : Compose (Option Token) := return (← get).tokens.head?

def skip : Compose Unit := modify fun c => { c with tokens := c.tokens.drop 1 }

/-- Whether the next token is `t`. -/
def sees (t : Token) : Compose Bool := return (← peek) == some t

def seesAny (ts : List Token) : Compose Bool := return (← peek).any ts.contains

/-- How many more steps composing what is left can take. -/
def patience : Compose Nat := return (← get).tokens.length + 1

/-- The tag in full. -/
def resolveTag (handle : String) (suffix : List UInt8) : Compose Tag := do
  if handle.isEmpty then return .joined [] suffix
  let some stem := (← get).handles.lookup handle | fail
  return .joined stem suffix

/-- Number an anchor. The answer is its place in the order of all anchors. -/
def declare (name : String) : Compose Nat := do
  let c ← get
  let number := c.numbers.length
  let numbers :=
    if c.numbers.any (·.1 == name) then
      c.numbers.map fun (n, i) => if n == name then (n, number) else (n, i)
    else c.numbers ++ [(name, number)]
  set { c with
    numbers
    holders := (number, c.anchors) :: c.holders
    anchors := c.anchors + 1 }
  return c.anchors

/-- The number that the name of an alias has. -/
def numberOf (name : String) : Compose Nat := do
  let some number := (← get).numbers.lookup name | fail
  return number

/-- Pass an anchor and a tag, in either order, each at most once. The answer is
the place of the anchor and the tag. -/
def properties : Compose (Option Nat × Option Tag) := do
  match ← peek with
  | some (.anchor name) =>
    skip
    match ← peek with
    | some (.tag handle suffix) =>
      skip
      let tag ← resolveTag handle suffix
      return (some (← declare name), some tag)
    | _ => return (some (← declare name), none)
  | some (.tag handle suffix) =>
    skip
    let tag ← resolveTag handle suffix
    match ← peek with
    | some (.anchor name) =>
      skip
      return (some (← declare name), some tag)
    | _ => return (none, some tag)
  | _ => return (none, none)

/-- The items of a sequence whose dashes stand one below the other, up to its
end. -/
def blockItems (node : Compose Node) : Nat → List Node → Compose (List Node)
  | 0, _ => fail
  | fuel + 1, acc => do
    match ← peek with
    | some .blockEntry =>
      skip
      let item ← if ← seesAny [.blockEntry, .blockEnd] then pure .missing else node
      blockItems node fuel (item :: acc)
    | some .blockEnd => skip; return acc.reverse
    | _ => fail

/-- The items of a sequence whose dashes stand below the key that it belongs
to. -/
def flushItems (node : Compose Node) : Nat → List Node → Compose (List Node)
  | 0, _ => fail
  | fuel + 1, acc => do
    if ← sees .blockEntry then
      skip
      let item ←
        if ← seesAny [.blockEntry, .key, .value, .blockEnd] then pure .missing else node
      flushItems node fuel (item :: acc)
    else return acc.reverse

/-- What stands after a token of a key or a value in a block, if anything
does. -/
def blockPart (node : Compose Node) (mark : Token) : Compose Node := do
  if ← sees mark then
    skip
    if ← seesAny [.key, .value, .blockEnd] then return .missing else node
  else return .missing

/-- The entries of a mapping in a block, up to its end. -/
def blockEntries (node : Compose Node) :
    Nat → List (Node × Node) → Compose (List (Node × Node))
  | 0, _ => fail
  | fuel + 1, acc => do
    match ← peek with
    | some .key =>
      let key ← blockPart node .key
      let value ← blockPart node .value
      blockEntries node fuel ((key, value) :: acc)
    | some .blockEnd => skip; return acc.reverse
    | _ => fail

/-- The value in a bracketed collection that closes with `close`. -/
def flowValue (node : Compose Node) (close : Token) : Compose Node := do
  if ← sees .value then
    skip
    if ← seesAny [.flowEntry, close] then return .missing else node
  else return .missing

/-- The one entry of a mapping that is an item between square brackets, after
its question mark. Where no key is written the token in its place is passed
too. -/
def flowPair (node : Compose Node) : Compose Node := do
  let key ←
    if ← seesAny [.value, .flowEntry, .flowSequenceEnd] then do
      skip
      pure .missing
    else node
  return .mapping none [(key, ← flowValue node .flowSequenceEnd)]

def flowItems (node : Compose Node) : Nat → List Node → Compose (List Node)
  | 0, _ => fail
  | fuel + 1, acc => do
    if ← sees .flowSequenceEnd then
      skip
      return acc.reverse
    if !acc.isEmpty then
      if ← sees .flowEntry then skip else fail
    match ← peek with
    | some .key => skip; flowItems node fuel ((← flowPair node) :: acc)
    | some .flowSequenceEnd => skip; return acc.reverse
    | _ => flowItems node fuel ((← node) :: acc)

/-- The entries between curly brackets, up to the closing one. What stands
without a colon is a key without a value. -/
def flowEntries (node : Compose Node) :
    Nat → List (Node × Node) → Compose (List (Node × Node))
  | 0, _ => fail
  | fuel + 1, acc => do
    if ← sees .flowMappingEnd then
      skip
      return acc.reverse
    if !acc.isEmpty then
      if ← sees .flowEntry then skip else fail
    match ← peek with
    | some .key =>
      skip
      let key ←
        if ← seesAny [.value, .flowEntry, .flowMappingEnd] then pure .missing else node
      let value ← flowValue node .flowMappingEnd
      flowEntries node fuel ((key, value) :: acc)
    | some .flowMappingEnd => skip; return acc.reverse
    | _ => flowEntries node fuel ((← node, .missing) :: acc)

/-- A node. Only in a block (`block`) may it be a block, and only as a part of a
mapping in a block (`flush`) may the dashes of its items stand below the key. -/
def node : Nat → (block flush : Bool) → Compose Node
  | 0, _, _ => fail
  | fuel + 1, block, flush => do
    if let some (.alias name) ← peek then
      skip
      return .alias (← numberOf name)
    let (anchor, tag) ← properties
    let inBlock := node fuel true false
    let inFlow := node fuel false false
    let made ← match ← peek with
      | some .blockEntry =>
        if flush then pure (.sequence tag (← flushItems inBlock fuel []))
        else bare anchor tag
      | some (.scalar text plain) =>
        skip
        pure (.scalar tag text plain)
      | some .flowSequence => skip; pure (.sequence tag (← flowItems inFlow fuel []))
      | some .flowMapping => skip; pure (.mapping tag (← flowEntries inFlow fuel []))
      | some .blockSequence =>
        if block then skip; pure (.sequence tag (← blockItems inBlock fuel []))
        else bare anchor tag
      | some .blockMapping =>
        if block then
          skip
          pure (.mapping tag (← blockEntries (node fuel true true) fuel []))
        else bare anchor tag
      | _ => bare anchor tag
    if let some place := anchor then
      modify fun c => { c with nodes := (place, made) :: c.nodes }
    return made
where
  /-- A node of which nothing is written but an anchor or a tag. -/
  bare (anchor : Option Nat) (tag : Option Tag) : Compose Node :=
    if anchor.isSome || tag.isSome then return .scalar tag "" true else fail

/-- The tag handles that every document has. -/
def standardHandles : List (String × List UInt8) :=
  [("!", "!".toUTF8.toList), ("!!", "tag:yaml.org,2002:".toUTF8.toList)]

/-- Pass the directives of a document. The version may be named once, and is 1.1
or 1.2; no handle may be given two meanings. -/
def directives : Nat → Bool → List (String × List UInt8) → Compose Unit
  | 0, _, _ => fail
  | fuel + 1, versioned, handles => do
    match ← peek with
    | some (.version major minor) =>
      if versioned || major != 1 || (minor != 1 && minor != 2) then fail
      skip
      directives fuel true handles
    | some (.tagHandle handle stem) =>
      if handles.any (·.1 == handle) then fail
      skip
      directives fuel versioned (handles ++ [(handle, stem)])
    | _ => modify fun c => { c with handles := handles ++ standardHandles }

def content : Compose Node := do
  match ← peek with
  | none | some (.version ..) | some (.tagHandle ..) | some .documentStart
  | some .documentEnd => return .missing
  | _ => node (← patience) true false

def documentEnds : Nat → Compose Unit
  | 0 => return
  | fuel + 1 => do
    if ← sees .documentEnd then
      skip
      documentEnds fuel

def document : Compose (Option Node) := do
  match ← peek with
  | none => return none
  | some (.version ..) | some (.tagHandle ..) | some .documentStart =>
    directives (← patience) false []
    if !(← sees .documentStart) then fail
    skip
    let root ← content
    finish root
  | _ =>
    directives (← patience) false []
    let root ← node (← patience) true false
    finish root
where
  /-- Nothing may follow a document. -/
  finish (root : Node) : Compose (Option Node) := do
    documentEnds (← patience)
    if (← peek).isSome then fail
    return some root

end Compose

namespace Document

def ofTokens? (tokens : List Token) : Option Document := do
  let (root, c) ← Compose.document.run { tokens }
  return { root, anchored := c.holders.filterMap fun (number, place) =>
    (c.nodes.lookup place).map fun n => (number, n) }

/-- The document that a text holds, if the text is YAML. -/
def ofText? (text : String) : Option Document := Token.ofText? text >>= ofTokens?

/-- What carries the anchor with a number. -/
def anchor? (d : Document) (number : Nat) : Option Node := d.anchored.lookup number

/-- The size of what a document holds. -/
def size (d : Document) : Nat := (d.root.map Node.size).getD 1

end Document

end ResourceWatch.Yaml
