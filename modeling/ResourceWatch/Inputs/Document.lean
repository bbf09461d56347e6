import ResourceWatch.Inputs.Validity
import ResourceWatch.Yaml.CoreSchema
import ResourceWatch.Yaml.Node

/-!
# Input sets as documents

An input set is written as a mapping from owners to what they declare:

    owner:
      exactResources:
      - group: apps
        version: v1
        resource: deployments
        namespace: default
        name: web

The version and the resource have to be there. A missing or empty namespace or
name leaves a selector wide, and a missing group is the core group. Fields of
other names are passed over. What an owner or its list leaves blank is empty.
-/

namespace ResourceWatch

open Yaml (Document Node Tag Meaning CoreTag scalarMeaning? CoreSchema.isNullWord)

/-- Reading a document counts the aliases that were followed on the way. -/
abbrev DocumentReader := StateT Nat Option

namespace DocumentReader

/-- The document is no input set. -/
def fail {α : Type} : DocumentReader α := StateT.lift none

/-- How often an alias may be followed for each part of the document. -/
def aliasLimit : Nat := 100

/-- How many collections may stand inside one another where the whole of a value
is read. -/
def depthLimit : Nat := 128

/-- What a node stands for. It is no alias. -/
def follow (d : Document) (n : Node) : DocumentReader Node := do
  match n with
  | .alias number =>
    let jumps := (← get) + 1
    set jumps
    if aliasLimit * d.size < jumps then fail
    match d.anchor? number with
    | some n => return n
    | none => fail
  | n => return n

/-- The entries of a mapping, of which there are none where nothing is
written. -/
def entries (d : Document) (n : Node) : DocumentReader (List (Node × Node)) := do
  match ← follow d n with
  | .mapping _ entries => return entries
  | .scalar _ "" true => return []
  | _ => fail

/-- The items of a sequence, of which there are none where nothing is
written. -/
def items (d : Document) (n : Node) : DocumentReader (List Node) := do
  match ← follow d n with
  | .sequence _ items => return items
  | .scalar _ "" true => return []
  | _ => fail

/-- The text of a scalar, whatever it stands for. -/
def text (d : Document) (n : Node) : DocumentReader String := do
  match ← follow d n with
  | .scalar _ text _ => return text
  | _ => fail

/-- The text of a scalar that stands for a text. -/
def word (d : Document) (n : Node) : DocumentReader String := do
  match ← follow d n with
  | .scalar tag text plain =>
    if scalarMeaning? tag text plain = some .text then return text else fail
  | _ => fail

/-- The text of a scalar. There is none if nothing is written or a word for
nothing, or the text is empty. -/
def word? (d : Document) (n : Node) : DocumentReader (Option String) := do
  match ← follow d n with
  | .scalar tag text plain =>
    if plain && tag.isNone && CoreSchema.isNullWord text then return none
    if plain && (tag.bind CoreTag.of?) == some .null then
      if CoreSchema.isNullWord text then return none else fail
    return if text.isEmpty then none else some text
  | _ => fail

/-- Whether the value of a whole number has room in 64 bits. -/
def fitsWord : Meaning → Bool
  | .int n => -(Nat.pow 2 63 : Int) ≤ n && n < (Nat.pow 2 64 : Int)
  | _ => true

/-- Read the whole of a value that nothing is done with. It may nest `depth`
collections, each part of it must have a meaning, and nothing has one under a tag
that the document has made up. -/
def passOver (d : Document) : (depth : Nat) → Node → DocumentReader Unit
  | depth, n => do
    match depth, ← follow d n with
    | _, .scalar tag text plain =>
      if !(scalarMeaning? tag text plain).any fitsWord then fail
    | depth + 1, .sequence tag items =>
      if tag.any Tag.isOwn then fail
      items.forM (passOver d depth)
    | depth + 1, .mapping tag entries =>
      if tag.any Tag.isOwn then fail
      entries.forM fun (k, v) => do
        passOver d depth k
        passOver d depth v
    | _, _ => fail

/-- What has been read of a selector. -/
structure Fields where
  group : Option String := none
  version : Option String := none
  resource : Option String := none
  ns : Option (Option String) := none
  name : Option (Option String) := none

/-- Fill a field, which is empty until then. -/
def fill {α : Type} (slot : Option α) (value : DocumentReader α) :
    DocumentReader (Option α) := do
  if slot.isSome then fail
  return some (← value)

/-- How many collections a selector stands in. -/
def selectorDepth : Nat := 4

def field (d : Document) (f : Fields) (entry : Node × Node) : DocumentReader Fields := do
  let (key, value) := entry
  match ← text d key with
  | "group" => return { f with group := ← fill f.group (word d value) }
  | "version" => return { f with version := ← fill f.version (word d value) }
  | "resource" => return { f with resource := ← fill f.resource (word d value) }
  | "namespace" => return { f with ns := ← fill f.ns (word? d value) }
  | "name" => return { f with name := ← fill f.name (word? d value) }
  | _ =>
    passOver d (depthLimit - selectorDepth) value
    return f

def selector (d : Document) (n : Node) : DocumentReader Selector := do
  let f ← (← entries d n).foldlM (field d) {}
  let some version := f.version | fail
  let some resource := f.resource | fail
  return .declare ⟨f.group.getD "", version, resource⟩ f.ns.join f.name.join

def selectors (d : Document) (n : Node) : DocumentReader (List Selector) := do
  let read (found : Option (List Selector)) (entry : Node × Node) := do
    if (← text d entry.1) == "exactResources" then
      fill found do (← items d entry.2).mapM (selector d)
    else return found
  return ((← (← entries d n).foldlM read none)).getD []

def inputSet (d : Document) : DocumentReader InputSet := do
  let owners ← match d.root with
    | some n => entries d n
    | none => pure []
  let declared ← owners.mapM fun (k, v) => do return (← text d k, ← selectors d v)
  return .ofList declared

end DocumentReader

namespace InputSet

def ofText (text : String) : Except InputError InputSet :=
  match Document.ofText? text with
  | none => .error .parse
  | some d =>
    match (DocumentReader.inputSet d).run 0 with
    | some (set, _) => .ok set
    | none => .error .parse

def ofFile (files : Files) (path : String) : Except InputError InputSet :=
  match files path with
  | .ok text => ofText text
  | .error fault => .error (.io path fault)

end InputSet

end ResourceWatch
