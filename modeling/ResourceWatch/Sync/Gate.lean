import ResourceWatch.Error

/-!
# The sync gate

The gate tells everybody whether the first lists are complete. It is opened once
at most: whatever settles it first, completion or failure, settles it for good.
Letting go of a gate that is not settled counts as failure, so that nobody waits
for it for ever.
-/

namespace ResourceWatch

/-- What the gate tells. -/
inductive SyncState where
  /-- The first lists are not complete yet. -/
  | pending
  /-- The first lists are complete. -/
  | synced
  /-- Startup failed before the first lists were complete. -/
  | cancelled
deriving DecidableEq, Repr, Inhabited

namespace SyncState

def text : SyncState → String
  | .pending => "pending"
  | .synced => "synced"
  | .cancelled => "cancelled"

/-- Settle the gate, unless it is settled. -/
def settle (s : SyncState) (outcome : SyncState) : SyncState :=
  if s = .pending then outcome else s

/-- What somebody is told who waits for the gate, under a token that has fired or
has not. Nothing is told while the gate is open to both outcomes. -/
def answer? (s : SyncState) (fired : Bool) : Option (Except WatchError Unit) :=
  if fired then some (.error .cancelled)
  else match s with
    | .pending => none
    | .synced => some (.ok ())
    | .cancelled => some (.error .syncAborted)

theorem settle_settle (s a b : SyncState) (h : a ≠ .pending) :
    (s.settle a).settle b = s.settle a := by
  cases s <;> simp [settle, h]

end SyncState

end ResourceWatch
