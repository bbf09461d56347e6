import ResourceWatch.Error
import ResourceWatch.Log

/-!
# Outlines of errors

A program that ends with an error prints its outline: the name of each cause,
from the outermost to the innermost, with what it is about in brackets or in
fields between braces. Texts in an outline are quoted.
-/

namespace ResourceWatch

namespace Outline

/-- A name with one thing in brackets. -/
def wrapped (name inner : String) : String := name ++ "(" ++ inner ++ ")"

def fields (name : String) (fs : List (String × String)) : String :=
  name ++ " \x7b " ++ ", ".intercalate (fs.map fun (k, v) => k ++ ": " ++ v) ++ " \x7d"

end Outline

open Outline (wrapped fields)
open Text (quoted)

/-- The outline of a fault of a file. One of the system's own is headed by its
number. -/
def FileFault.outline (f : FileFault) : String :=
  let about := [("kind", f.kind), ("message", quoted f.words)]
  match f.code? with
  | some code => fields "Os" (("code", toString code) :: about)
  | none => fields "Error" about

def InputError.outline : InputError → String
  | .io path fault => fields "Io" [("path", quoted path), ("source", fault.outline)]
  | .parse => "Parse"
  | .unsupported owner selector defect =>
    fields "Unsupported" [("owner", quoted owner), ("selector", quoted selector.text),
      ("reason", quoted defect.text)]
  | .empty => "Empty"

def WatchError.outline : WatchError → String
  | .invalidInput cause => wrapped "InvalidInput" cause.outline
  | .cluster => "Kube"
  | .unknownKind id fault =>
    fields "UnknownKind" [("kind", quoted id.text), ("reason", quoted fault.text)]
  | .kindResolution owner selector cause =>
    fields "KindResolution" [("owner", quoted owner), ("selector", quoted selector.text),
      ("reason", quoted cause.message)]
  | .streamRegistration gvk fault =>
    fields "StreamRegistration" [("kind", quoted gvk.text), ("reason", quoted fault.text)]
  | .stream message => wrapped "Stream" (quoted message)
  | .streamClosed gvk => wrapped "StreamClosed" (quoted gvk.text)
  | .malformedEvent fault => wrapped "MalformedEvent" (quoted fault.text)
  | .malformedKey key fault =>
    fields "MalformedKey" [("key", quoted key), ("reason", quoted fault.text)]
  | .syncTimeout limit => wrapped "SyncTimeout" limit.text
  | .syncAborted => "SyncAborted"
  | .cancelled => "Cancelled"

def ControllerError.outline : ControllerError → String
  | .cluster => "Kube"
  | .watch cause => wrapped "Watch" cause.outline
  | .inputResources cause => wrapped "InputResources" cause.outline
  | .invalidConfig fault => wrapped "InvalidConfig" (quoted fault.text)
  | .metrics => wrapped "Metrics" "AlreadyReg"
  | .task fault => wrapped "Task" (quoted fault.text)

end ResourceWatch
