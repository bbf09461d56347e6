import ResourceWatch.Channel
import ResourceWatch.Engine.Feed
import ResourceWatch.Reconcile.Workshop
import ResourceWatch.Source.Step
import ResourceWatch.Sync.Gate

/-!
# The engine

The engine is the whole path of a change. Streams deliver notifications; a pump
for each stream passes them through the filters of its kind into the event
channel; the source takes them out again and hands their keys to the work queue;
a worker reconciles the keys. Startup opens the streams, waits until each has
delivered its first full list, and opens the gate. The pipeline ties these
together and says why it ended.

Each of them is a task, and this module says what the tasks are, what they share
and who is made ready when one of them ends. What a task does when it goes on is
said in the modules beside this one.
-/

namespace ResourceWatch

/-- Where a pump stands. -/
inductive PumpState where
  /-- It takes what its stream delivers. -/
  | listening
  /-- Its change waits for room in the event channel. -/
  | sending (event : ChangeEvent)
  /-- It has ended. -/
  | ended
deriving DecidableEq, Repr, Inhabited

/-- What passes on what a stream delivers. -/
structure Pump where
  /-- The kind of the stream. -/
  gvk : Gvk
  /-- Where it stands. -/
  state : PumpState := .listening
  /-- Whether the stream has delivered its first full list. -/
  hydrated : Bool := false
  /-- Whether the pump is to end. -/
  aborted : Bool := false
deriving DecidableEq, Repr, Inhabited

structure Registration where
  /-- The kinds, in plan order. -/
  kinds : List Gvk := []
  /-- The pumps of the streams, in the same order. -/
  pumps : List TaskId := []
  /-- The streams that nobody has waited for, with their pumps. -/
  pending : List (Gvk × TaskId) := []
deriving DecidableEq, Repr, Inhabited

inductive Startup where
  /-- It has not run yet. -/
  | fresh
  /-- It waits for the streams in `pending`, the first one first, until a
  time. -/
  | hydrating (registration : Registration) (pending : List (Gvk × TaskId)) (due : Nat)
  /-- It has ended. -/
  | ended (result : Except WatchError Registration)

inductive CallToken where
  /-- The token that everybody shares. -/
  | shared
  /-- One that nobody else has; it has fired or not. -/
  | own (fired : Bool)
deriving DecidableEq, Repr, Inhabited

def CallToken.fired (shared : Bool) : CallToken → Bool
  | .shared => shared
  | .own fired => fired

/-- Where a call stands that waits for the streams of the kept registration. -/
inductive HydrationCall where
  /-- It waits until nobody else uses the registration. -/
  | locking (limit : Duration) (token : CallToken)
  /-- It waits for the streams in `pending`, the first one first, until a
  time. -/
  | hydrating (pending : List (Gvk × TaskId)) (limit : Duration) (due : Nat) (token : CallToken)
  /-- It has ended; there may have been no registration. -/
  | ended (result : Option (Except WatchError Unit))
  /-- It was given up before it had ended. -/
  | dropped

def HydrationCall.fire : HydrationCall → HydrationCall
  | .locking limit (.own _) => .locking limit (.own true)
  | .hydrating pending limit due (.own _) => .hydrating pending limit due (.own true)
  | call => call

/-- Where a call stands that waits until every stream of a registration has
ended. -/
inductive JoinCall where
  /-- It waits until nobody else uses the kept registration. -/
  | locking
  /-- It waits for pumps. -/
  | joining (pumps : List TaskId)
  /-- It has ended; there may have been no registration. -/
  | ended (found : Bool)

/-- Why the pipeline ended. -/
abbrev PipelineResult := Except ControllerError Unit

/-- Where the pipeline stands. The numbers are those of its source, its startup
and its worker. -/
inductive Pipeline where
  /-- It has not run yet. -/
  | fresh
  /-- It waits for the gate. -/
  | syncing (source startup : TaskId)
  /-- The gate failed, and it waits for startup to end. -/
  | failing (source startup : TaskId)
  /-- Startup has ended, and it waits for the source to end. -/
  | draining (source : TaskId) (result : PipelineResult)
  /-- The gate has opened, and it waits for startup to hand over the streams. -/
  | opening (source startup : TaskId)
  /-- Keys are being reconciled. -/
  | running (source worker : TaskId) (registration : Registration)
  /-- It waits for everything to end. -/
  | stopping (source worker : TaskId) (registration : Registration) (result : PipelineResult)
  /-- It has ended. -/
  | ended (result : PipelineResult)

/-- A task of the engine. -/
inductive EngineTask where
  | pump (pump : Pump)
  /-- A source, for the work queue or for a queue that only records. -/
  | source (state : Source) (recording : Bool)
  | startup (state : Startup)
  /-- Somebody waits for the gate, or was told. -/
  | waiter (answer : Option (Except WatchError Unit))
  | hydration (call : HydrationCall)
  | join (call : JoinCall)
  | pipeline (state : Pipeline)
  | worker (state : Worker)
  | delayed (key : String) (push : DelayedPush)

namespace EngineTask

/-- Whether a task is a pump that has not ended. -/
def isLivePump : EngineTask → Bool
  | .pump p => p.state != .ended
  | _ => false

def isEnded : EngineTask → Bool
  | .pump p => p.state == .ended
  | .source .ended _ | .startup (.ended _) | .waiter (some _) | .hydration (.ended _)
  | .hydration .dropped | .join (.ended _) | .pipeline (.ended _) | .worker .stopped
  | .delayed _ .pushed => true
  | _ => false

/-- Whether a task waits for what task `t` does. -/
def awaits (t : TaskId) : EngineTask → Bool
  | .startup (.hydrating _ pending _) => pending.any (·.2 == t)
  | .hydration (.hydrating pending ..) => pending.any (·.2 == t)
  | .join (.joining pumps) => pumps.contains t
  | .pipeline (.failing _ init) | .pipeline (.opening _ init) => init == t
  | .pipeline (.draining src _) => src == t
  | .pipeline (.running src hand _) => src == t || hand == t
  | .pipeline (.stopping src hand registration _) =>
    src == t || hand == t || registration.pumps.contains t
  | _ => false

/-- Whether a task goes on when the token fires. -/
def heedsToken : EngineTask → Bool
  | .pump p => p.state != .ended
  | .source .running _ | .startup (.hydrating ..) | .waiter none
  | .hydration (.hydrating _ _ _ .shared) | .pipeline (.syncing ..)
  | .pipeline (.running ..) => true
  | _ => false

/-- Whether a task goes on when the gate is settled. -/
def heedsGate : EngineTask → Bool
  | .waiter none | .pipeline (.syncing ..) => true
  | _ => false

end EngineTask

/-- The engine. -/
structure Engine where
  /-- The work queue, the reconciler, the ledger and the record of what
  happened. -/
  shop : Workshop
  /-- What is to be watched. -/
  plan : WatchPlan
  /-- How long startup waits for the streams. -/
  limit : Duration
  /-- What opens the streams. -/
  provider : Provider := {}
  /-- The changes on their way to the source. -/
  channel : Channel
  /-- Whether somebody beside the pumps may write to the channel. -/
  spare : Bool := true
  /-- Whether the shared token has fired. -/
  fired : Bool := false
  /-- What the gate tells. -/
  gate : SyncState := .pending
  /-- Whether startup has not begun and has not been given up. -/
  idleStartup : Bool := true
  /-- Whether the source has not begun and has not been given up. -/
  idleSource : Bool := true
  /-- The registration that is kept from outside. -/
  kept : Option Registration := none
  /-- Who uses the kept registration, and who waits to use it. -/
  lock : List TaskId := []
  /-- The keys that a recording queue was handed. -/
  recorded : List String := []
  /-- The changes that were received from outside. -/
  received : List ChangeEvent := []
  /-- How many streams the last registration that succeeded has opened. -/
  streams : Option Nat := none
  /-- Whether a startup has found all first lists complete. -/
  synced : Bool := false
  /-- The tasks by number. -/
  tasks : List EngineTask := []
  /-- The tasks that answer a call from outside, in the order of the calls. -/
  calls : List TaskId := []

namespace Engine

def onDesk (w : Engine) (f : Desk → Desk) : Engine :=
  { w with shop := { w.shop with toDesk := f w.shop.toDesk } }

def now (w : Engine) : Nat := w.shop.schedule.now

def note (w : Engine) (o : Occurrence) : Engine := w.onDesk (·.note o)

def log (w : Engine) (events : List LogEvent) : Engine :=
  events.foldl (fun w e => w.note (.logged e)) w

def wakeAll (w : Engine) (ts : List TaskId) : Engine := w.onDesk (·.wakeAll ts)

/-- The numbers of the tasks of a sort, in ascending order. -/
def tasksWhere (w : Engine) (p : EngineTask → Bool) : List TaskId :=
  (List.range w.tasks.length).filter fun t => (w.tasks[t]?.map p).getD false

/-- The engine with another state of one task. -/
def setTask (w : Engine) (t : TaskId) (task : EngineTask) : Engine :=
  { w with tasks := w.tasks.set t task }

def nextTask (w : Engine) : TaskId := w.tasks.length

/-- The engine with one more task, which is ready. -/
def spawn (w : Engine) (task : EngineTask) : Engine :=
  { w with tasks := w.tasks ++ [task] }.wakeAll [w.nextTask]

/-- The engine with one more task, which answers a call from outside. -/
def call (w : Engine) (task : EngineTask) : Engine :=
  { w.spawn task with calls := w.calls ++ [w.nextTask] }

def pump? (w : Engine) (t : TaskId) : Option Pump :=
  match w.tasks[t]? with
  | some (.pump p) => some p
  | _ => none

def hasEnded (w : Engine) (t : TaskId) : Bool := (w.tasks[t]?.map EngineTask.isEnded).getD true

/-- Whether anybody may still write to the event channel. -/
def hasSenders (w : Engine) : Bool := w.spare || w.tasks.any EngineTask.isLivePump

def wakeAwaiting (w : Engine) (t : TaskId) : Engine :=
  w.wakeAll (w.tasksWhere (·.awaits t))

/-- Whoever waits for a change is made ready. -/
def wakeListener (w : Engine) : Engine :=
  let (channel, listener) := w.channel.takeListener
  { w with channel }.wakeAll listener.toList

/-- If nobody can write to the channel any more, whoever waits for a change is
made ready. -/
def noticeSilence (w : Engine) : Engine := if w.hasSenders then w else w.wakeListener

def fire (w : Engine) : Engine :=
  if w.fired then w
  else { w with fired := true }.wakeAll (w.tasksWhere EngineTask.heedsToken)

def settleGate (w : Engine) (outcome : SyncState) : Engine :=
  { w with gate := w.gate.settle outcome }.wakeAll (w.tasksWhere EngineTask.heedsGate)

def abort (w : Engine) (pumps : List TaskId) : Engine :=
  pumps.foldl (fun w t =>
    match w.pump? t with
    | some p =>
      if p.state = .ended then w else (w.setTask t (.pump { p with aborted := true })).wakeAll [t]
    | none => w) w

/-- A registration is let go of. -/
def drop (w : Engine) (r : Registration) : Engine := w.abort r.pumps

end Engine

end ResourceWatch
