import ResourceWatch.Source.Step
import ResourceWatch.Sync.Gate

/-!
# A source and its senders

The world of the source alone: any number of senders send changes, a queue
records the keys that are handed over, and some wait for the gate.

A change is sent if there is room for it, or it is offered: then it waits for room,
and whoever offers it is a sender until it is in the channel or has been turned
away or given up.
-/

namespace ResourceWatch.SourceWorld

inductive Offer where
  /-- It is to enter the channel. -/
  | waiting (event : ChangeEvent)
  /-- It is in the channel, or was. -/
  | sent
  /-- It was turned away, or given up. -/
  | dropped
deriving DecidableEq, Repr

/-- A task of this world. -/
inductive Task where
  | source (state : Source)
  /-- Somebody waits for the gate, or was told. -/
  | waiter (answer : Option (Except WatchError Unit))
  /-- Somebody offers a change. -/
  | offer (state : Offer)

/-- Whether a task is somebody who may still send. -/
def Task.isSender : Task → Bool
  | .offer (.waiting _) => true
  | _ => false

/-- Whether a task heeds the token and the gate. -/
def Task.heeds : Task → Bool
  | .source state => state != .ended
  | .waiter answer => answer.isNone
  | .offer _ => false

end ResourceWatch.SourceWorld

namespace ResourceWatch

/-- A channel, a source and a gate. -/
structure SourceWorld where
  /-- When tasks run. -/
  schedule : Schedule := {}
  /-- The changes on their way. -/
  channel : Channel
  /-- How many may send, beside those who offer a change. -/
  handles : Nat := 1
  /-- Whether the source has neither begun nor been let go of. -/
  idleSource : Bool := true
  /-- Whether the token has fired. -/
  fired : Bool := false
  /-- What the gate tells. -/
  state : SyncState := .pending
  /-- Whether the gate can still be used. -/
  held : Bool := true
  /-- What happened. -/
  history : History := []
  /-- The tasks by number. -/
  tasks : List SourceWorld.Task := []

namespace SourceWorld

def note (w : SourceWorld) (o : Occurrence) : SourceWorld :=
  { w with history := w.history ++ [o] }

def wakeAll (w : SourceWorld) (ts : List TaskId) : SourceWorld :=
  { w with schedule := w.schedule.wakeAll ts }

/-- Whether a change can still come. -/
def hasSenders (w : SourceWorld) : Bool := 0 < w.handles || w.tasks.any Task.isSender

/-- Whoever waits for a change is made ready. -/
def wakeListener (w : SourceWorld) : SourceWorld :=
  let (channel, listener) := w.channel.takeListener
  { w with channel }.wakeAll listener.toList

/-- If no change can come any more, whoever waits for one is made ready. -/
def noticeSilence (w : SourceWorld) : SourceWorld := if w.hasSenders then w else w.wakeListener

def offer (w : SourceWorld) (t : TaskId) (e : ChangeEvent) : SourceWorld :=
  match w.channel.offer t e with
  | (channel, .sent) =>
    { w with channel, tasks := w.tasks.set t (.offer .sent) }.wakeListener.note (.entered e)
  | (channel, .refused) =>
    { w with channel, tasks := w.tasks.set t (.offer .dropped) }.noticeSilence
  | (channel, .wait) => { w with channel }

def act (w : SourceWorld) (t : TaskId) : SourceWorld × Progress :=
  match w.tasks[t]? with
  | some (.source .ended) => (w, .rests)
  | some (.source state) =>
    let move := state.act w.channel t w.fired w.hasSenders
    let w := { w with
      channel := move.channel, tasks := w.tasks.set t (.source (Source.after move.deed)) }
    let w := move.log.foldl (fun w e => w.note (.logged e)) (w.wakeAll move.woken)
    let w := match move.deed with
      | .hand key => w.note (.keyed key)
      | _ => w
    (w, Source.progress move.deed)
  | some (.waiter none) =>
    ({ w with tasks := w.tasks.set t (.waiter (w.state.answer? w.fired)) }, .rests)
  | some (.offer (.waiting e)) => (w.offer t e, .rests)
  | _ => (w, .rests)

instance : Cooperative SourceWorld where
  schedule := SourceWorld.schedule
  reschedule w s := { w with schedule := s }
  act := act

/-- The numbers of the tasks that heed the token and the gate. -/
def pending (w : SourceWorld) : List TaskId :=
  (List.range w.tasks.length).filter fun t => w.tasks[t]?.any Task.heeds

inductive Command where
  /-- A change is sent if there is room for it. -/
  | send (event : ChangeEvent)
  /-- A change is offered, which waits for room. -/
  | offer (event : ChangeEvent)
  /-- A change that was offered is given up. -/
  | giveUp (task : TaskId)
  /-- One more may send. -/
  | cloneSender
  /-- The source begins. -/
  | start
  /-- One fewer may send. -/
  | dropSender
  /-- The source is let go of before it begins. -/
  | dropSource
  /-- The token fires. -/
  | cancel
  /-- The first lists are complete. -/
  | markSynced
  /-- The gate is let go of. -/
  | dropGate
  /-- Somebody waits for the gate: the source is asked once while it has not
  begun, and afterwards one more waits. -/
  | wait
deriving Repr

inductive Reply where
  | none
  /-- The change is in the channel. -/
  | sent
  /-- The channel is full. -/
  | full
  /-- Nobody receives any more. -/
  | closed
  /-- Nobody sends any more. -/
  | noSender
  /-- The gate tells nothing yet. -/
  | pending
  /-- The gate was asked. -/
  | gate (answer : Except WatchError Unit)

def send (w : SourceWorld) (e : ChangeEvent) : SourceWorld × Reply :=
  if w.handles = 0 then (w, .noSender)
  else if w.channel.closed then (w, .closed)
  else if w.channel.room = 0 then (w, .full)
  else ({ w with channel := w.channel.put e }.wakeListener.note (.entered e), .sent)

/-- A change that was offered is given up, unless it is known what became of it.
Room that it was given passes to the next one. -/
def giveUp (w : SourceWorld) (t : TaskId) : SourceWorld :=
  match w.tasks[t]? with
  | some (.offer (.waiting _)) =>
    let (channel, next) := w.channel.withdraw t
    let w := { w with channel, tasks := w.tasks.set t (.offer .dropped) }
    (w.wakeAll next.toList).noticeSilence
  | _ => w

/-- Use the gate up. A gate that is used up already stays as it is. -/
def resolve (w : SourceWorld) (outcome : SyncState) : SourceWorld :=
  if w.held then
    let w := { w with held := false, state := w.state.settle outcome }
    w.wakeAll w.pending
  else w

def spawn (w : SourceWorld) (task : Task) : SourceWorld :=
  { w with tasks := w.tasks ++ [task] }.wakeAll [w.tasks.length]

def apply (w : SourceWorld) : Command → SourceWorld × Reply
  | .send e => w.send e
  | .offer e =>
    if w.handles = 0 then (w, .noSender) else (w.spawn (.offer (.waiting e)), .none)
  | .giveUp t => (w.giveUp t, .none)
  | .cloneSender =>
    if w.handles = 0 then (w, .noSender) else ({ w with handles := w.handles + 1 }, .none)
  | .start =>
    (if w.idleSource then { w with idleSource := false }.spawn (.source .fresh) else w, .none)
  | .dropSender => ({ w with handles := w.handles - 1 }.noticeSilence, .none)
  | .dropSource =>
    if w.idleSource then
      let (channel, woken) := w.channel.drop
      ({ w with idleSource := false, channel }.wakeAll woken, .none)
    else (w, .none)
  | .cancel => ({ w with fired := true }.wakeAll w.pending, .none)
  | .markSynced => (w.resolve .synced, .none)
  | .dropGate => (w.resolve .cancelled, .none)
  | .wait =>
    if w.idleSource then
      (w, ((w.state.answer? w.fired).map Reply.gate).getD .pending)
    else (w.spawn (.waiter .none), .none)

def perform (w : SourceWorld) (c : Command) : SourceWorld × Reply :=
  let (w, reply) := w.apply c
  (Cooperative.settle w, reply)

/-- Whether the source has ended, if it has begun. -/
def starts (w : SourceWorld) : List (Option Unit) :=
  w.tasks.filterMap fun
    | .source .ended => some (some ())
    | .source _ => some none
    | .waiter _ | .offer _ => none

def waits (w : SourceWorld) : List (Option (Except WatchError Unit)) :=
  w.tasks.filterMap fun
    | .source _ | .offer _ => none
    | .waiter answer => some answer

end SourceWorld

end ResourceWatch
