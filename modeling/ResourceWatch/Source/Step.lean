import ResourceWatch.Channel
import ResourceWatch.History
import ResourceWatch.Key

/-!
# The source

The source takes changes from the event channel, one after the other, and hands
the keys of their objects over to the work queue. A change to an object of
unknown kind has no key; it is told of and skipped. The source ends when its
token fires, or when no change can come any more and none is left.
-/

namespace ResourceWatch

/-- Where the source stands. -/
inductive Source where
  /-- It has not run yet. -/
  | fresh
  /-- It takes changes. -/
  | running
  /-- It has ended. -/
  | ended
deriving DecidableEq, Repr, Inhabited

namespace Source

inductive Deed where
  /-- It says that it begins. -/
  | begin
  /-- It hands a key over. -/
  | hand (key : String)
  /-- It skips a change. -/
  | skip
  /-- It waits for a change. -/
  | wait
  /-- It ends. -/
  | finish
deriving DecidableEq, Repr

/-- A move of the source. -/
structure Move where
  /-- The channel after the move. -/
  channel : Channel
  /-- What the source does. -/
  deed : Deed
  /-- What it tells of. -/
  log : List LogEvent := []
  /-- The senders to make ready. -/
  woken : List TaskId := []

/-- The source ends, and lets go of the channel. -/
def stop (c : Channel) (event : LogEvent) : Move :=
  let (c, woken) := c.drop
  { channel := c, deed := .finish, log := [event], woken }

/-- The source goes on as task `t`. Its token has fired or has not, and there is
or is not somebody who may still send. -/
def act (c : Channel) (t : TaskId) (fired senders : Bool) : Source → Move
  | .fresh => { channel := c, deed := .begin, log := [.sourceStarting] }
  | .running =>
    if fired then stop c .sourceCancelled
    else match c.receive? with
      | some (e, c, woken) =>
        match ObjectKey.ofReference? e.reference with
        | some key =>
          { channel := c, deed := .hand key.encode, log := [.queueing key e.owner]
            woken := woken.toList }
        | none =>
          { channel := c, deed := .skip
            log := [.kindUnknown e.reference.joinedName e.owner], woken := woken.toList }
      | none =>
        if senders then { channel := { c with listener := some t }, deed := .wait }
        else stop c .sourceClosed
  | .ended => { channel := c, deed := .wait }

def after : Deed → Source
  | .finish => .ended
  | .begin | .hand _ | .skip | .wait => .running

/-- Whether the source goes on at once after a deed. -/
def progress : Deed → Progress
  | .begin | .hand _ | .skip => .goesOn
  | .wait | .finish => .rests

end Source

end ResourceWatch
