import ResourceWatch.Json.Decoder
import ResourceWatch.Object
import ResourceWatch.Text.Timestamp

/-!
# Objects as documents

The cluster interface writes an object as a JSON object: the words of its type
under `apiVersion` and `kind`, its identity under `metadata`, and its payload in
all other members.

An object without a type of its own is still an object. Of its type words, those
that stand in front of what spoils them are no part of the payload.
-/

namespace ResourceWatch

open Json (Decoder)
open Json.Decoder (RecordField text optional int bool list textMap textWhere record recordWith)
open Json.Decoder (into)

namespace TypeWords

/-- Take the type words out of the members of an object, given those that were
found already. There is no type where one of the words is missing, is no text, or
is there twice. The members that are left are handed back. -/
def takeFrom (apiVersion kind : Option String) :
    List (String × Json) → Option TypeWords × List (String × Json)
  | [] => (do return ⟨← apiVersion, ← kind⟩, [])
  | (name, value) :: rest =>
    if name = "apiVersion" then
      match apiVersion, value with
      | none, .str word => takeFrom (some word) kind rest
      | _, _ => (none, rest)
    else if name = "kind" then
      match kind, value with
      | none, .str word => takeFrom apiVersion (some word) rest
      | _, _ => (none, rest)
    else
      let (types, rest) := takeFrom apiVersion kind rest
      (types, (name, value) :: rest)

def ofMembers (members : List (String × Json)) : Option TypeWords × List (String × Json) :=
  takeFrom none none members

end TypeWords

namespace Metadata

/-- Members that are texts, and are not kept. -/
def texts {σ : Type} (names : List String) : List (RecordField σ) :=
  names.map (.checked (optional text))

def timestamp : Decoder String := textWhere Text.isTimestamp

def manager : Decoder Unit :=
  record (texts ["apiVersion", "fieldsType", "manager", "operation", "subresource"] ++
    [.checked (optional Json.Reading.value) "fieldsV1", .checked (optional timestamp) "time"]) ()

/-- A reference to another object that an object belongs to. -/
def owner : Decoder Unit :=
  record (texts ["apiVersion", "kind", "name", "uid"] ++
    ["blockOwnerDeletion", "controller"].map (.checked (optional bool))) ()

/-- The members of an identity. What is not kept has to be of the right form all
the same. -/
def fields : List (RecordField Metadata) :=
  [ .kept "name" (optional text) fun m v => { m with name := v },
    .kept "namespace" (optional text) fun m v => { m with ns := v },
    .kept "uid" (optional text) fun m v => { m with uid := v },
    .kept "resourceVersion" (optional text) fun m v => { m with resourceVersion := v },
    .kept "labels" (optional textMap) fun m v => { m with labels := v },
    .kept "managedFields" (optional (list manager))
      fun m v => { m with managers := (v.getD []).length } ] ++
  texts ["generateName", "selfLink"] ++
  ["creationTimestamp", "deletionTimestamp"].map (.checked (optional timestamp)) ++
  ["generation", "deletionGracePeriodSeconds"].map (.checked (optional int)) ++
  [ .checked (optional textMap) "annotations",
    .checked (optional (list text)) "finalizers",
    .checked (optional (list owner)) "ownerReferences" ]

/-- The identity of an object. -/
def decoder : Decoder Metadata := record fields {}

end Metadata

namespace Object

/-- What has been read of an object. -/
structure Parts where
  /-- Its identity. -/
  metadata : Option Metadata := none
  /-- All other members, the last one first. -/
  members : List (String × Json) := []

/-- The parts of an object. Its identity comes once. -/
def parts : Decoder Parts :=
  recordWith
    [.once "metadata" (·.metadata.isSome) Metadata.decoder
      fun p m => { p with metadata := some m }]
    (fun name p => into Json.Reading.value fun v => { p with members := (name, v) :: p.members })
    {}

def ofParts (p : Parts) : Object :=
  let (types, rest) := TypeWords.ofMembers p.members.reverse
  { types, metadata := p.metadata.getD {}, data := .ofMembers rest }

def decoder : Decoder Object := into parts ofParts

end Object

end ResourceWatch
