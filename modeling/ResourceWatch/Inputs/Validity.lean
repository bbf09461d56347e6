import ResourceWatch.Files
import ResourceWatch.Inputs.Basic

/-!
# Usable input sets

A selector can be watched only if its owner, its version and its resource are
named and its resource is no part of another resource. `InputSet.check` refuses
a set without selectors, and otherwise names the first selector that cannot be
watched and the first reason why.
-/

namespace ResourceWatch

inductive SelectorDefect where
  | ownerEmpty
  | versionEmpty
  | resourceEmpty
  | subresource
deriving DecidableEq, Repr

namespace SelectorDefect

def text : SelectorDefect → String
  | .ownerEmpty => "owner name is empty"
  | .versionEmpty => "version is empty"
  | .resourceEmpty => "resource is empty"
  | .subresource => "subresources cannot be watched"

def of? (owner : String) (s : Selector) : Option SelectorDefect :=
  if owner.isEmpty then some .ownerEmpty
  else if s.id.version.isEmpty then some .versionEmpty
  else if s.id.resource.isEmpty then some .resourceEmpty
  else if s.id.resource.toList.contains '/' then some .subresource
  else none

end SelectorDefect

/-- Why an input set cannot be used, or could not be read. -/
inductive InputError where
  /-- The file at `path` could not be read. -/
  | io (path : String) (fault : FileFault)
  /-- The document is no input set. -/
  | parse
  /-- A selector can never be watched. -/
  | unsupported (owner : String) (selector : Selector) (defect : SelectorDefect)
  /-- There is nothing to watch. -/
  | empty
deriving DecidableEq, Repr

def InputError.message : InputError → String
  | .io path fault => s!"IO error reading {path}: {fault.text}"
  | .parse => "Parse error"
  | .unsupported owner selector defect =>
    s!"Unsupported input resource {selector.text} for owner {owner}: {defect.text}"
  | .empty => "No input resources declared: at least one selector is required"

namespace InputSet

/-- The first selector of a list that can never be watched. -/
def firstDefect? (entries : List (String × Selector)) : Option InputError :=
  entries.findSome? fun (owner, s) =>
    (SelectorDefect.of? owner s).map fun d => .unsupported owner s d

/-- Refuse a set that is empty or holds a selector that can never be watched. -/
def check (set : InputSet) : Except InputError Unit :=
  if set.isEmpty then .error .empty
  else match firstDefect? set.entries with
    | some e => .error e
    | none => .ok ()

end InputSet

end ResourceWatch
