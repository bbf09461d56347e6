import ResourceWatch.Change.Notification
import ResourceWatch.Schedule

/-!
# The event channel

Changes pass through a channel that holds only so many of them. A sender that
finds it full waits; senders are given room in the order in which they began to
wait, one for every change that is received. Room that was given to a sender is
taken, whether the sender has gone on yet or not, so nobody can get in front of
it.

When the channel is closed no change enters any more: senders that wait are
turned away, and so are those that were given room and have not gone on. What is
in the channel by then can still be received.
-/

namespace ResourceWatch

/-- Changes on their way, and the senders that wait for room. -/
structure Channel where
  /-- How many changes it holds. -/
  capacity : Nat
  /-- The changes in it, the first one first. -/
  buffer : List ChangeEvent := []
  /-- The senders that wait for room, the one that waits longest first. -/
  waiting : List TaskId := []
  /-- The senders that have been given room and have not gone on. -/
  granted : List TaskId := []
  /-- Whether changes enter no more. -/
  closed : Bool := false
  /-- The task that waits for a change. -/
  listener : Option TaskId := none
deriving DecidableEq, Repr, Inhabited

inductive SendAnswer where
  /-- Its change is in the channel. -/
  | sent
  /-- The channel is closed. -/
  | refused
  /-- It waits for room. -/
  | wait
deriving DecidableEq, Repr

namespace Channel

/-- The most changes that a channel can be made for: sizes have 64 bits, of which
three are not for counting. -/
def maxCapacity : Nat := Nat.pow 2 61 - 1

/-- How many more changes there is room for that nobody has been given. -/
def room (c : Channel) : Nat := c.capacity - (c.buffer.length + c.granted.length)

def put (c : Channel) (e : ChangeEvent) : Channel := { c with buffer := c.buffer ++ [e] }

/-- Nobody waits for a change any more. The second part is who did. -/
def takeListener (c : Channel) : Channel × Option TaskId :=
  ({ c with listener := none }, c.listener)

/-- A sender offers its change, for the first time or after it was made ready. -/
def offer (c : Channel) (t : TaskId) (e : ChangeEvent) : Channel × SendAnswer :=
  if c.closed then ({ c with granted := c.granted.erase t }, .refused)
  else if t ∈ c.granted then ({ c with granted := c.granted.erase t }.put e, .sent)
  else if t ∈ c.waiting then (c, .wait)
  else if 0 < c.room then (c.put e, .sent)
  else ({ c with waiting := c.waiting ++ [t] }, .wait)

/-- Give the room that has become free to the sender that waits longest. The
second part is the task to make ready. -/
def grant (c : Channel) : Channel × Option TaskId :=
  match c.waiting with
  | [] => (c, none)
  | t :: rest => ({ c with waiting := rest, granted := c.granted ++ [t] }, some t)

/-- A sender gives up. Room that it was given passes to the next one. The second
part is the task to make ready. -/
def withdraw (c : Channel) (t : TaskId) : Channel × Option TaskId :=
  if t ∈ c.granted then grant { c with granted := c.granted.erase t }
  else ({ c with waiting := c.waiting.erase t }, none)

/-- Receive the first change. The last part is the task to make ready. -/
def receive? (c : Channel) : Option (ChangeEvent × Channel × Option TaskId) :=
  match c.buffer with
  | [] => none
  | e :: rest =>
    let (c, woken) := grant { c with buffer := rest }
    some (e, c, woken)

/-- Let no change enter any more. The second part names the tasks to make
ready. -/
def close (c : Channel) : Channel × List TaskId :=
  ({ c with closed := true, waiting := [] }, c.waiting)

/-- Close the channel and let go of what is in it. -/
def drop (c : Channel) : Channel × List TaskId :=
  let (c, woken) := c.close
  ({ c with buffer := [], listener := none }, woken)

end Channel

end ResourceWatch
