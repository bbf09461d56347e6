import ResourceWatch.History
import ResourceWatch.WorkQueue.Basic
import ResourceWatch.WorkQueue.Bell

/-!
# The desk

The desk is where tasks meet the work queue: the queue itself, the bell that
wakes those who wait for a key, the schedule that says who can go on, and the
record of what happened. A key that joins the queue rings once; closing the
queue rings for everybody.
-/

namespace ResourceWatch

/-- A work queue with those who wait for it. -/
structure Desk where
  /-- When tasks run. -/
  schedule : Schedule := {}
  /-- The keys. -/
  queue : WorkQueue := {}
  /-- The bell that wakes those who wait for a key. -/
  bell : Bell := {}
  /-- What happened. -/
  history : History := []
deriving Repr, Inhabited

namespace Desk

/-- Record that something happened. -/
def note (d : Desk) (o : Occurrence) : Desk := { d with history := d.history ++ [o] }

def wake (d : Desk) (t : TaskId) : Desk := { d with schedule := d.schedule.wake t }

def wakeAll (d : Desk) (ts : List TaskId) : Desk :=
  { d with schedule := d.schedule.wakeAll ts }

/-- Ring the bell once. -/
def ring (d : Desk) : Desk :=
  match d.bell.ring with
  | (bell, some t) => { d with bell }.wake t
  | (bell, none) => { d with bell }

def push (d : Desk) (key : String) : Desk :=
  match d.queue.push key with
  | (queue, .queued) => { d with queue }.ring
  | (queue, .deferred) => { d with queue }.note (.logged (.deferring key))
  | (queue, .ignored) => { d with queue }

def finish (d : Desk) (key : String) : Desk :=
  match d.queue.finish key with
  | (queue, true) => { d with queue }.ring
  | (queue, false) => { d with queue }

def close (d : Desk) : Desk :=
  let (bell, woken) := d.bell.ringAll
  { d with queue := d.queue.close, bell }.wakeAll woken

/-- What a task is told that asks for a key. -/
inductive Answer where
  /-- It is handed a key. -/
  | key (key : String)
  /-- The queue is closed and no key is left. -/
  | noMore
  /-- It is to ask again at once. -/
  | again
  /-- It waits for the bell. -/
  | wait
deriving DecidableEq, Repr

/-- A task asks for a key, for the first time or after the bell has woken it.
A task that still waits is told so again. -/
def ask (d : Desk) (t : TaskId) : Desk × Answer :=
  if t ∈ d.bell.waiting then (d, .wait)
  else
    let d := { d with bell := d.bell.goOn t }
    match d.queue.take? with
    | some (key, queue) => ({ d with queue }, .key key)
    | none =>
      if d.queue.closed then (d, .noMore)
      else
        match d.bell.await t with
        | (bell, true) => ({ d with bell }, .again)
        | (bell, false) => ({ d with bell }, .wait)

/-- A task that asked for a key does not want it any more. -/
def giveUp (d : Desk) (t : TaskId) : Desk :=
  match d.bell.giveUp t with
  | (bell, some next) => { d with bell }.wake next
  | (bell, none) => { d with bell }

end Desk

/-- A push that is put off. It is a task of its own: it sets its timer when it
first runs. -/
inductive DelayedPush where
  /-- It has not run yet, and is to wait so many milliseconds. -/
  | fresh (millis : Nat)
  /-- It waits for its time. -/
  | sleeping (due : Nat)
  /-- It has pushed its key. -/
  | pushed
deriving DecidableEq, Repr

namespace DelayedPush

def act (d : Desk) (t : TaskId) (key : String) : DelayedPush → Desk × DelayedPush
  | .fresh millis =>
    let due := d.schedule.wakingTime millis
    ({ d with schedule := d.schedule.setTimer due t }, .sleeping due)
  | .sleeping due =>
    if due ≤ d.schedule.now then (d.push key, .pushed) else (d, .sleeping due)
  | .pushed => (d, .pushed)

end DelayedPush

end ResourceWatch
