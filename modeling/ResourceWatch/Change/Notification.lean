import ResourceWatch.Change.Reference

/-!
# Notifications and events

A watch reports that an object was added, updated or deleted. A deletion comes
in two shapes: with the deleted object, or, when the deletion went unseen, with
the last state that was known. `Notification.reference` brings every shape to a
reference, and says what is wrong with a notice that has none.
-/

namespace ResourceWatch

/-- What happened to an object. -/
inductive Action where
  | added
  | updated
  | deleted
deriving DecidableEq, Repr, Inhabited

def Action.verb : Action → String
  | .added => "add"
  | .updated => "update"
  | .deleted => "delete"

/-- A deletion as a watch reports it. -/
inductive Deletion where
  /-- The deleted object itself. -/
  | live (object : Object)
  /-- The deletion went unseen; `key` is the text under which the object was
  tracked. -/
  | unseen (key : String) (lastKnown : Option Object)
deriving DecidableEq, Repr

/-- A change as a watch reports it. -/
inductive Notification where
  | added (object : Object)
  | updated (object : Object)
  | deleted (deletion : Deletion)
deriving DecidableEq, Repr

/-- Why a notification refers to no object. -/
inductive EventFault where
  /-- The object in it has no name. -/
  | nameless
  /-- It reports an unseen deletion and no state is known. -/
  | noObject (key : String)
deriving DecidableEq, Repr

def EventFault.text : EventFault → String
  | .nameless => "object has no name"
  | .noObject key => s!"tombstone for {key} carries no object"

namespace Notification

def action : Notification → Action
  | .added _ => .added
  | .updated _ => .updated
  | .deleted _ => .deleted

def object? : Notification → Option Object
  | .added o | .updated o | .deleted (.live o) => some o
  | .deleted (.unseen _ lastKnown) => lastKnown

/-- The reference of a notification about an object of a kind. A deletion
refers to the same object in both its shapes. -/
def reference (n : Notification) (kind : Option Gvk) : Except EventFault Reference :=
  match n with
  | .deleted (.unseen key none) => .error (.noObject key)
  | .added o | .updated o | .deleted (.live o) | .deleted (.unseen _ (some o)) =>
    match Reference.ofObject? o kind with
    | some r => .ok r
    | none => .error .nameless

end Notification

inductive StreamEvent where
  /-- A change. -/
  | change (notification : Notification)
  /-- The first full list is complete. -/
  | hydrated
deriving DecidableEq, Repr

/-- A change on its way to the work queue. -/
structure ChangeEvent where
  /-- The object that changed. -/
  reference : Reference
  /-- The first owner whose selector takes the object. -/
  owner : String
  /-- What happened to the object. -/
  action : Action
deriving DecidableEq, Repr, Inhabited

end ResourceWatch
