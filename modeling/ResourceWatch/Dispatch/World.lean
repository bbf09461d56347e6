import ResourceWatch.Channel
import ResourceWatch.History

/-!
# A dispatcher and its callers

The world of the dispatcher alone: calls hand over notifications, each for one
kind, and a receiver takes changes from the event channel. A call whose change
finds the channel full waits for room.
-/

namespace ResourceWatch.DispatchWorld

/-- Where a call stands. -/
inductive Call where
  /-- Its notification has not been looked at yet. -/
  | fresh (gvk : Gvk) (notification : Notification)
  /-- Its change waits for room. -/
  | sending (event : ChangeEvent)
  /-- It has ended. -/
  | ended (outcome : DispatchOutcome)
deriving DecidableEq, Repr

end ResourceWatch.DispatchWorld

namespace ResourceWatch

/-- A filter table, an event channel and the calls. -/
structure DispatchWorld where
  /-- When tasks run. -/
  schedule : Schedule := {}
  /-- The filters of every kind. -/
  table : FilterTable
  /-- The changes that passed a filter. -/
  channel : Channel
  /-- What the receiver has taken. -/
  received : List ChangeEvent := []
  /-- What happened. -/
  history : History := []
  /-- The calls by number. -/
  tasks : List DispatchWorld.Call := []
deriving Repr, Inhabited

namespace DispatchWorld

def note (w : DispatchWorld) (o : Occurrence) : DispatchWorld :=
  { w with history := w.history ++ [o] }

def wake (w : DispatchWorld) (t : Option TaskId) : DispatchWorld :=
  match t with
  | some t => { w with schedule := w.schedule.wake t }
  | none => w

/-- A call has ended; its outcome is counted. -/
def finish (w : DispatchWorld) (t : TaskId) (o : DispatchOutcome) : DispatchWorld :=
  { w with tasks := w.tasks.set t (.ended o) }.note (.handled o)

def send (w : DispatchWorld) (t : TaskId) (e : ChangeEvent) : DispatchWorld :=
  match w.channel.offer t e with
  | (channel, .sent) => ({ w with channel }.note (.entered e)).finish t .forwarded
  | (channel, .refused) => { w with channel }.finish t .closed
  | (channel, .wait) => { w with channel, tasks := w.tasks.set t (.sending e) }

def act (w : DispatchWorld) (t : TaskId) : DispatchWorld × Progress :=
  match w.tasks[t]? with
  | some (.fresh gvk n) =>
    let (verdict, log) := w.table.judge gvk n
    let w := log.foldl (fun w e => w.note (.logged e)) w
    match verdict with
    | .drop outcome => (w.finish t outcome, .rests)
    | .forward event => (w.send t event, .rests)
  | some (.sending event) => (w.send t event, .rests)
  | _ => (w, .rests)

instance : Cooperative DispatchWorld where
  schedule := DispatchWorld.schedule
  reschedule w s := { w with schedule := s }
  act := act

inductive Command where
  /-- One more call. -/
  | handle (gvk : Gvk) (notification : Notification)
  /-- Take a change if there is one. -/
  | receive
  /-- Take changes until there is none, and let the calls go on after each. -/
  | drain
  /-- Receive nothing any more, not even what is in the channel. -/
  | drop
  /-- Let nothing enter the channel any more. -/
  | close
  /-- Nothing is done. -/
  | look
deriving DecidableEq, Repr

def receive (w : DispatchWorld) : DispatchWorld :=
  match w.channel.receive? with
  | some (e, channel, woken) =>
    { w with channel, received := w.received ++ [e] }.wake woken
  | none => w

/-- Take changes until there is none, at most `fuel` of them. -/
def drain : Nat → DispatchWorld → DispatchWorld
  | 0, w => w
  | fuel + 1, w =>
    if w.channel.buffer.isEmpty then w else drain fuel (Cooperative.settle w.receive)

/-- The channel after something that makes senders ready. -/
def withChannel (w : DispatchWorld) (change : Channel × List TaskId) : DispatchWorld :=
  { w with channel := change.1, schedule := w.schedule.wakeAll change.2 }

/-- A command and everything that it causes. Every change that is drained was in
the channel or belongs to a call, which bounds their number. -/
def perform (w : DispatchWorld) : Command → DispatchWorld
  | .handle gvk n =>
    Cooperative.settle { w with
      schedule := w.schedule.wake w.tasks.length, tasks := w.tasks ++ [.fresh gvk n] }
  | .receive => Cooperative.settle w.receive
  | .drain => drain (w.channel.buffer.length + w.tasks.length + 1) w
  | .drop => Cooperative.settle (w.withChannel w.channel.drop)
  | .close => Cooperative.settle (w.withChannel w.channel.close)
  | .look => w

def answers (w : DispatchWorld) : List (Option DispatchOutcome) :=
  w.tasks.map fun
    | .ended o => some o
    | _ => none

end DispatchWorld

end ResourceWatch
