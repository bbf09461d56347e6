import ResourceWatch.Schedule
import ResourceWatch.Sync.Gate

/-!
# A gate and those who wait for it

The world of the gate alone. Any number of tokens may fire, and whoever waits does
so under one of them. Token zero is the one that is shared where no other is named.

The gate can be used once, to settle it one way or the other. Every use of it ends
with letting go of it, and that may come later than the use itself.
-/

namespace ResourceWatch

structure GateWaiter where
  /-- The token that cuts the waiting short. -/
  token : Nat
  /-- What was told. -/
  answer : Option (Except WatchError Unit) := none

/-- A gate, tokens, and those who wait. -/
structure GateWorld where
  /-- When tasks run. -/
  schedule : Schedule := {}
  /-- What the gate tells. -/
  state : SyncState := .pending
  /-- Whether the gate can still be used. -/
  held : Bool := true
  /-- The tokens that have fired. -/
  fired : List Nat := []
  /-- Those who wait or have waited, by number. -/
  tasks : List GateWaiter := []

namespace GateWorld

/-- What becomes of somebody who looks at their token and at the gate. Whoever was
told something stays with it. -/
def look (w : GateWorld) (waiter : GateWaiter) : GateWaiter :=
  { waiter with answer := waiter.answer <|> w.state.answer? (w.fired.contains waiter.token) }

def act (w : GateWorld) (t : TaskId) : GateWorld × Progress :=
  ({ w with tasks := w.tasks.modify t w.look }, .rests)

instance : Cooperative GateWorld where
  schedule := GateWorld.schedule
  reschedule w s := { w with schedule := s }
  act := act

/-- Make those ready who still wait, under a token that matters. -/
def wakeWaiting (w : GateWorld) (matters : Nat → Bool) : GateWorld :=
  let waiting := (List.range w.tasks.length).filter fun t =>
    w.tasks[t]?.any fun waiter => waiter.answer.isNone && matters waiter.token
  { w with schedule := w.schedule.wakeAll waiting }

inductive Command where
  /-- The first lists are complete. -/
  | markSynced
  /-- Startup failed. -/
  | cancel
  /-- The gate is let go of, whether it was used before or not. -/
  | drop
  /-- A token fires. -/
  | fireToken (token : Nat)
  /-- One more waits, under a token. -/
  | waitUnder (token : Nat)
  /-- Nothing is done. -/
  | look
deriving DecidableEq, Repr

/-- The shared token fires. -/
def Command.fire : Command := .fireToken 0

/-- One more waits, under the shared token or under another one. -/
def Command.wait (shared : Bool) : Command := .waitUnder (if shared then 0 else 1)

/-- Settle the gate, unless it is settled, and make everybody ready who waits for
that. -/
def settle (w : GateWorld) (outcome : SyncState) : GateWorld :=
  if w.state = .pending then
    { w with state := w.state.settle outcome }.wakeWaiting fun _ => true
  else w

/-- Use the gate up. A gate that is used up already stays as it is. -/
def resolve (w : GateWorld) (outcome : SyncState) : GateWorld :=
  if w.held then { w with held := false }.settle outcome else w

def apply (w : GateWorld) : Command → GateWorld
  | .markSynced => w.resolve .synced
  | .cancel => w.resolve .cancelled
  | .drop => { w with held := false }.settle .cancelled
  | .fireToken token => { w with fired := token :: w.fired }.wakeWaiting (· == token)
  | .waitUnder token =>
    { w with schedule := w.schedule.wake w.tasks.length, tasks := w.tasks ++ [{ token }] }
  | .look => w

def perform (w : GateWorld) (c : Command) : GateWorld := Cooperative.settle (w.apply c)

/-- What everybody was told so far, in the order in which they began to wait. -/
def answers (w : GateWorld) : List (Option (Except WatchError Unit)) := w.tasks.map (·.answer)

end GateWorld

end ResourceWatch
