import ResourceWatch.Backoff
import ResourceWatch.Reconcile.Observe
import ResourceWatch.Reconcile.Script
import ResourceWatch.WorkQueue.Desk

/-!
# The workshop

The workshop is the desk together with what a worker needs to reconcile keys: a
reconciler and the ledger of failures. A worker asks for a key, reconciles it,
and asks again.

A reconcile that ends well, or finds that its key can never be read, forgets the
failures of its key. Any other failure is counted, and the key is to be pushed
again after the delay that its failures ask for. Only then is the key reported
done.
-/

namespace ResourceWatch

inductive Reconciler where
  /-- A script. -/
  | scripted (script : Script)
  /-- A look at the cache, for the owners of a plan. -/
  | observing (plan : WatchPlan)
  /-- Whatever answers. So many reconciles have been asked for; how long the next
  one takes, in milliseconds, and how it ends depends on their number and on the
  key. -/
  | answering (asked : Nat) (answer : Nat → String → Nat × ReconcileResult)

instance : Inhabited Reconciler := ⟨.scripted []⟩

/-- The desk with a reconciler and its ledger. -/
structure Workshop extends Desk where
  /-- What reconciles a key. -/
  reconciler : Reconciler := .scripted []
  /-- What reconciles may look at. -/
  cache : Cache := {}
  /-- The failures of every key. -/
  ledger : RetryLedger
  /-- How many keys waited when the last reconcile was done. -/
  depth : Option Nat := none
deriving Inhabited

/-- Where a worker stands. -/
inductive Worker where
  /-- It asks for a key. -/
  | asking
  /-- It reconciles a key until a time, with a result that is settled. -/
  | working (key : String) (result : ReconcileResult) (due : Nat)
  /-- It has ended. -/
  | stopped
deriving Repr, Inhabited

namespace Workshop

def note (w : Workshop) (o : Occurrence) : Workshop := { w with toDesk := w.toDesk.note o }

def log (w : Workshop) (e : LogEvent) : Workshop := w.note (.logged e)

/-- Enter the result of a reconcile into the ledger. The second part is the
delay after which the key is to be pushed again. -/
def enter (w : Workshop) (key : String) : ReconcileResult → Workshop × Option Duration
  | .ok _ => ({ w with ledger := w.ledger.reset key }, none)
  | .error (.watch (.malformedKey k fault)) =>
    let w := w.log (.givingUp key (.malformedKey k fault))
    ({ w with ledger := w.ledger.reset key }, none)
  | .error e =>
    let ledger := w.ledger.record key
    let delay := ledger.delayOf key
    ({ w with ledger }.log (.retrying key (ledger.count key) e delay), some delay)

def conclude (w : Workshop) (key : String) : Workshop :=
  let desk := w.toDesk.finish key
  { w with toDesk := desk, depth := some desk.queue.queue.length }

/-- Begin to reconcile a key: how long it takes, in milliseconds, and how it
ends. -/
def begin (w : Workshop) (key : String) : Workshop × Nat × ReconcileResult :=
  let w := w.note (.began key w.schedule.now)
  match w.reconciler with
  | .scripted script =>
    let (step, rest) := script.next key
    ({ w with reconciler := .scripted rest }, step.millis, step.outcome.result key)
  | .observing plan =>
    let (result, log) := w.cache.observe plan key
    (log.foldl Workshop.log w, 0, result)
  | .answering asked answer =>
    let (millis, result) := answer asked key
    ({ w with reconciler := .answering (asked + 1) answer }, millis, result)

end Workshop

namespace Worker

/-- What a move of a worker comes to. -/
structure Move where
  /-- The workshop after the move. -/
  workshop : Workshop
  /-- Where the worker stands then. -/
  worker : Worker
  /-- A key that is to be pushed after so many milliseconds, by a task that is
  ready already. -/
  retry : Option (String × Nat) := none
  /-- Whether the worker goes on at once. -/
  progress : Progress

/-- A reconcile has a result. A key that is to be pushed again gets the task
`fresh` for its put-off push, before it is reported done. -/
def settle (w : Workshop) (key : String) (result : ReconcileResult) (fresh : TaskId) : Move :=
  match (w.note (.reconciled key result w.schedule.now)).enter key result with
  | (w, none) => { workshop := w.conclude key, worker := .asking, progress := .goesOn }
  | (w, some delay) =>
    let w := { w with toDesk := w.toDesk.wake fresh }
    { workshop := w.conclude key
      worker := .asking
      retry := some (key, delay.millisUp)
      progress := .goesOn }

/-- A worker goes on. The task `fresh` is one that does not exist yet. -/
def act (w : Workshop) (t : TaskId) (fresh : TaskId) : Worker → Move
  | .asking =>
    match w.toDesk.ask t with
    | (desk, .key key) =>
      let (w, millis, result) := { w with toDesk := desk }.begin key
      if millis = 0 then settle w key result fresh
      else
        let due := w.schedule.wakingTime millis
        { workshop := { w with schedule := w.schedule.setTimer due t }
          worker := .working key result due
          progress := .rests }
    | (desk, .noMore) =>
      { workshop := { w with toDesk := desk }.log .workerStopped
        worker := .stopped
        progress := .rests }
    | (desk, .again) =>
      { workshop := { w with toDesk := desk }, worker := .asking, progress := .goesOn }
    | (desk, .wait) =>
      { workshop := { w with toDesk := desk }, worker := .asking, progress := .rests }
  | .working key result due =>
    if due ≤ w.schedule.now then settle (w.note (.ended key w.schedule.now)) key result fresh
    else { workshop := w, worker := .working key result due, progress := .rests }
  | .stopped => { workshop := w, worker := .stopped, progress := .rests }

end Worker

end ResourceWatch
