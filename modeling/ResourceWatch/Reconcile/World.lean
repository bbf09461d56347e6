import ResourceWatch.Reconcile.Workshop

/-!
# A queue and its workers

The world of the workshop alone: workers reconcile keys that are pushed from
outside, and pushes are put off, by the workers and from outside.
-/

namespace ResourceWatch.WorkerWorld

/-- A task of this world. -/
inductive Task where
  | worker (state : Worker)
  | delayed (key : String) (push : DelayedPush)
deriving Repr

end ResourceWatch.WorkerWorld

namespace ResourceWatch

/-- A workshop, its workers and the pushes that are put off. -/
structure WorkerWorld where
  /-- The queue, the reconciler and the ledger. -/
  shop : Workshop
  /-- The tasks by number. -/
  tasks : List WorkerWorld.Task := []
deriving Inhabited

namespace WorkerWorld

def setTask (w : WorkerWorld) (t : TaskId) (task : Task) : WorkerWorld :=
  { w with tasks := w.tasks.set t task }

def spawn (w : WorkerWorld) (task : Task) : WorkerWorld :=
  { w with
    shop := { w.shop with toDesk := w.shop.toDesk.wake w.tasks.length }
    tasks := w.tasks ++ [task] }

def act (w : WorkerWorld) (t : TaskId) : WorkerWorld × Progress :=
  match w.tasks[t]? with
  | some (.worker state) =>
    let move := state.act w.shop t w.tasks.length
    let started := move.retry.map fun (key, millis) => Task.delayed key (.fresh millis)
    ({ shop := move.workshop
       tasks := w.tasks.set t (.worker move.worker) ++ started.toList }, move.progress)
  | some (.delayed key push) =>
    let (desk, push) := push.act w.shop.toDesk t key
    ({ w with shop := { w.shop with toDesk := desk } }.setTask t (.delayed key push), .rests)
  | none => (w, .rests)

instance : Cooperative WorkerWorld where
  schedule w := w.shop.schedule
  reschedule w s := { w with shop := { w.shop with schedule := s } }
  act := act

inductive Command where
  /-- One more worker begins. -/
  | start
  | push (key : String)
  | pushAfter (key : String) (millis : Nat)
  | close
  | pass (millis : Nat)
deriving DecidableEq, Repr

def onDesk (w : WorkerWorld) (f : Desk → Desk) : WorkerWorld :=
  { w with shop := { w.shop with toDesk := f w.shop.toDesk } }

def apply (w : WorkerWorld) : Command → WorkerWorld
  | .start => w.spawn (.worker .asking)
  | .push key => w.onDesk (·.push key)
  | .pushAfter key millis =>
    if millis = 0 then w.onDesk (·.push key) else w.spawn (.delayed key (.fresh millis))
  | .close => w.onDesk Desk.close
  | .pass _ => w

def perform (w : WorkerWorld) : Command → WorkerWorld
  | .pass millis => Cooperative.pass w millis
  | c => Cooperative.settle (w.apply c)

/-- For every worker, in the order in which they began, whether it has ended. -/
def answers (w : WorkerWorld) : List (Option Unit) :=
  w.tasks.filterMap fun
    | .worker .stopped => some (some ())
    | .worker _ => some none
    | .delayed .. => none

end WorkerWorld

end ResourceWatch
