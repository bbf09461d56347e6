import ResourceWatch.Engine.World

/-!
# The pipeline

The pipeline starts the source before anything else, because the first lists pass
through the channel that the source empties. It starts a worker only when the
gate has opened, so nothing is reconciled before the first lists are complete.

It ends well only if it was cancelled. A startup that fails by itself ends it
with the error of startup; a source or a worker that ends by itself ends it with
an error that names which. Whatever ends it, it lets everything else end first.
-/

namespace ResourceWatch.Engine

def actSource (w : Engine) (t : TaskId) (state : Source) (recording : Bool) :
    Engine × Progress :=
  match state with
  | .ended => (w, .rests)
  | state =>
    let move := state.act w.channel t w.fired w.hasSenders
    let w := { w with channel := move.channel }.setTask t
      (.source (Source.after move.deed) recording)
    let w := (w.wakeAll move.woken).log move.log
    let w := match move.deed with
      | .hand key =>
        let w := w.note (.keyed key)
        if recording then { w with recorded := w.recorded ++ [key] } else w.onDesk (·.push key)
      | .finish => w.wakeAwaiting t
      | _ => w
    (w, Source.progress move.deed)

def actWorker (w : Engine) (t : TaskId) (state : Worker) : Engine × Progress :=
  let move := state.act w.shop t w.nextTask
  let started := move.retry.map fun (key, millis) => EngineTask.delayed key (.fresh millis)
  let w := { w with
    shop := move.workshop
    tasks := w.tasks.set t (.worker move.worker) ++ started.toList }
  (if w.hasEnded t then w.wakeAwaiting t else w, move.progress)

def startupResult? (w : Engine) (t : TaskId) : Option (Except WatchError Registration) :=
  match w.tasks[t]? with
  | some (.startup (.ended result)) => some result
  | _ => none

/-- The pipeline's result when startup has ended before the gate opened. A
startup that was cancelled, or that came too late to matter, was asked to
stop. -/
def beforeSync : Except WatchError Registration → PipelineResult
  | .ok _ | .error .cancelled => .ok ()
  | .error e => .error (.watch e)

def stopReason? (w : Engine) (source worker : TaskId) : Option PipelineResult :=
  if w.fired then some (.ok ())
  else if w.hasEnded source then some (.error (.task .sourceStopped))
  else if w.hasEnded worker then some (.error (.task .workerStopped))
  else none

def actPipeline (w : Engine) (t : TaskId) : Pipeline → Engine × Progress
  | .fresh =>
    let source := w.nextTask
    let startup := source + 1
    let w := (w.spawn (.source .fresh false)).spawn (.startup .fresh)
    (w.setTask t (.pipeline (.syncing source startup)), .goesOn)
  | .syncing source startup =>
    match w.gate.answer? w.fired with
    | none => (w, .rests)
    | some (.ok ()) => (w.setTask t (.pipeline (.opening source startup)), .goesOn)
    | some (.error _) => (w.fire.setTask t (.pipeline (.failing source startup)), .goesOn)
  | .failing source startup =>
    match w.startupResult? startup with
    | none => (w, .rests)
    | some result =>
      let w := match result with
        | .ok r => w.drop r
        | .error _ => w
      (w.setTask t (.pipeline (.draining source (beforeSync result))), .goesOn)
  | .draining source result =>
    if w.hasEnded source then (w.setTask t (.pipeline (.ended result)), .rests) else (w, .rests)
  | .opening source startup =>
    match w.startupResult? startup with
    | none => (w, .rests)
    | some (.error e) => (w.setTask t (.pipeline (.ended (.error (.watch e)))), .rests)
    | some (.ok r) =>
      let worker := w.nextTask
      let w := w.spawn (.worker .asking)
      (w.setTask t (.pipeline (.running source worker r)), .goesOn)
  | .running source worker r =>
    match w.stopReason? source worker with
    | none => (w, .rests)
    | some result =>
      ((w.fire.onDesk Desk.close).setTask t (.pipeline (.stopping source worker r result)),
        .goesOn)
  | .stopping source worker r result =>
    if w.hasEnded source && w.hasEnded worker && r.pumps.all w.hasEnded then
      (w.setTask t (.pipeline (.ended result)), .rests)
    else (w, .rests)
  | .ended result => (w.setTask t (.pipeline (.ended result)), .rests)

end ResourceWatch.Engine
