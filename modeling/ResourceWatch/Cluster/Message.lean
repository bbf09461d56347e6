import ResourceWatch.Object.Document

/-!
# Watch messages

A watch is answered with one message a line. A message tells of a change of an
object, marks a version that has been reached, or reports an error.

A message has two parts: its type, and what it is about. It is an object with
these two under their names, in either order and among others, or a list of the
two.
-/

namespace ResourceWatch

open Json (Decoder)
open Json.Decoder (text word textMap record recordWith into listOf comma required)
open Json.Reading (skipBlank peek expect colon)

/-- A line of a watch. -/
inductive WatchMessage where
  /-- An object was added or changed. -/
  | applied (object : Object)
  /-- An object was deleted. -/
  | deleted (object : Object)
  /-- Everything up to this version has been told. -/
  | bookmark (version : String)
  /-- The watch met with an error of this number. -/
  | failure (code : Nat)
deriving DecidableEq, Repr

inductive MessageType where
  | added
  | modified
  | deleted
  | bookmark
  | error
deriving DecidableEq, Repr

namespace MessageType

def ofWord? : String → Option MessageType
  | "ADDED" => some .added
  | "MODIFIED" => some .modified
  | "DELETED" => some .deleted
  | "BOOKMARK" => some .bookmark
  | "ERROR" => some .error
  | _ => none

def word : Decoder MessageType := .simple fun j => j.str?.bind ofWord?

/-- A type as an object with nothing under its word. -/
def inObject : Decoder MessageType
  | 0 => throw .malformed
  | room + 1 => do
    expect '\x7b'
    let type ← word room
    colon
    discard (Decoder.simple (fun j => if j = .null then some () else none) room)
    skipBlank
    expect '\x7d'
    return type

/-- A type: its word, or an object with nothing under it. -/
def decoder : Decoder MessageType := fun room => do
  skipBlank
  match ← peek with
  | '"' => word room
  | '\x7b' => inObject room
  | _ => throw .malformed

end MessageType

namespace WatchMessage

structure Header where
  /-- The version that it marks. -/
  version : Option String := none
  /-- Whether there were annotations. -/
  annotated : Bool := false

/-- The header of a bookmark: a record, or a list of the version and perhaps
annotations. -/
def header : Decoder String := fun room => do
  skipBlank
  if (← peek) == '[' then listOf inList room
  else required (into inRecord Header.version) room
where
  /-- The header as a record. -/
  inRecord : Decoder Header :=
    record [
      .once "resourceVersion" (·.version.isSome) text fun h v => { h with version := some v },
      .once "annotations" Header.annotated textMap fun h _ => { h with annotated := true }] {}
  /-- The header as a list. -/
  inList : Decoder String := fun room => do
    let version ← text room
    skipBlank
    if (← peek) == ',' then
      comma
      discard (textMap room)
    return version

structure BookmarkParts where
  /-- The version that it marks. -/
  version : Option String := none
  /-- All members but the header, the last one first. -/
  members : List (String × Json) := []

/-- The parts of a bookmark. Its header comes once. -/
def bookmarkParts : Decoder BookmarkParts :=
  recordWith
    [.once "metadata" (·.version.isSome) header fun p v => { p with version := some v }]
    (fun name p => into Json.Reading.value fun v => { p with members := (name, v) :: p.members })
    {}

/-- The version that a bookmark marks. It is typed like an object. -/
def bookmarked : Decoder String :=
  required (into bookmarkParts fun p => do
    let _ ← (TypeWords.ofMembers p.members.reverse).1
    p.version)

structure FailureParts where
  /-- How it went in a word. -/
  status : Option String := none
  /-- What happened. -/
  message : Option String := none
  /-- Why, in a word. -/
  reason : Option String := none
  /-- Its number. -/
  code : Option Nat := none

/-- The parts of an error. Each comes once. -/
def failureParts : Decoder FailureParts :=
  record [
    .once "status" (·.status.isSome) text fun p v => { p with status := some v },
    .once "message" (·.message.isSome) text fun p v => { p with message := some v },
    .once "reason" (·.reason.isSome) text fun p v => { p with reason := some v },
    .once "code" (·.code.isSome) word fun p v => { p with code := some v }] {}

/-- The number of an error: one of the members of a record, or the last of four
items of a list. -/
def failed : Decoder Nat := fun room => do
  skipBlank
  if (← peek) == '[' then listOf inList room
  else required (into failureParts fun p => do
    let _ ← p.status
    p.code) room
where
  /-- The error as a list. -/
  inList : Decoder Nat := fun room => do
    for _ in [0, 1, 2] do
      discard (text room)
      comma
    word room

def about : MessageType → Decoder WatchMessage
  | .added | .modified => into Object.decoder applied
  | .deleted => into Object.decoder deleted
  | .bookmark => into bookmarked bookmark
  | .error => into failed failure

structure Parts where
  /-- Its type. -/
  type : Option MessageType := none
  /-- The characters of what it is about, where that came before the type. -/
  deferred : Option (List Char) := none
  /-- The message. -/
  message : Option WatchMessage := none

/-- Pass a value, which is read for what it is later. Its characters are handed
back. -/
def deferred : Decoder (List Char) := fun room => do
  let before ← get
  discard (Json.Reading.value room)
  return before.take (before.length - (← get).length)

/-- Read the type. What the message is about is read too if it came before. -/
def typePart (p : Parts) : Decoder Parts := fun room => do
  let type ← MessageType.decoder room
  let message ← p.deferred.mapM fun cs => Decoder.run (about type) cs
  return { p with type := some type, message }

/-- Read what the message is about, as soon as its type is known. -/
def objectPart (p : Parts) : Decoder Parts :=
  match p.type with
  | some type => into (about type) fun message => { p with message := some message }
  | none => into deferred fun cs => { p with deferred := some cs }

/-- The parts of a message. The type and what it is about come once each. -/
def parts : Decoder Parts :=
  record [
    ("type", fun p => if p.type.isSome then none else some (typePart p)),
    ("object", fun p =>
      if p.message.isSome || p.deferred.isSome then none else some (objectPart p))] {}

/-- A message. -/
def decoder : Decoder WatchMessage := fun room => do
  skipBlank
  if (← peek) == '[' then listOf inList room
  else required (into parts Parts.message) room
where
  /-- The message as a list. -/
  inList : Decoder WatchMessage := fun room => do
    let type ← MessageType.decoder room
    comma
    about type room

/-- Read a line. A line that was cut off is told apart from one that is no
message. -/
def ofLine (line : String) : Except Json.ReadFault WatchMessage :=
  Decoder.run decoder line.toList

end WatchMessage

end ResourceWatch
