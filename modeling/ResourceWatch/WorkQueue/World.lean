import ResourceWatch.WorkQueue.Desk

/-!
# A queue and its consumers

The world of the work queue alone: any number of consumers ask for keys, each
for one, and pushes may be put off. Whoever was handed a key reports it done when
they please.
-/

namespace ResourceWatch.QueueWorld

inductive Task where
  /-- A consumer that has not been told anything final yet. -/
  | asking
  /-- A consumer with its answer: a key, or none because the queue is closed. -/
  | answered (key : Option String)
  /-- A consumer that gave up. -/
  | gaveUp
  /-- A push that is put off. -/
  | delayed (key : String) (push : DelayedPush)
deriving DecidableEq, Repr

end ResourceWatch.QueueWorld

namespace ResourceWatch

/-- A work queue, its consumers and the pushes that are put off. -/
structure QueueWorld where
  /-- The queue with those who wait for it. -/
  desk : Desk := {}
  /-- The tasks by number. -/
  tasks : List QueueWorld.Task := []
deriving Repr, Inhabited

namespace QueueWorld

/-- The world with another state of one task. -/
def setTask (w : QueueWorld) (t : TaskId) (task : Task) : QueueWorld :=
  { w with tasks := w.tasks.set t task }

/-- The world with one more task, which is ready. -/
def spawn (w : QueueWorld) (task : Task) : QueueWorld :=
  { w with desk := w.desk.wake w.tasks.length, tasks := w.tasks ++ [task] }

def act (w : QueueWorld) (t : TaskId) : QueueWorld × Progress :=
  match w.tasks[t]? with
  | some .asking =>
    match w.desk.ask t with
    | (desk, .key key) => ({ w with desk }.setTask t (.answered (some key)), .rests)
    | (desk, .noMore) => ({ w with desk }.setTask t (.answered none), .rests)
    | (desk, .again) => ({ w with desk }, .goesOn)
    | (desk, .wait) => ({ w with desk }, .rests)
  | some (.delayed key push) =>
    let (desk, push) := push.act w.desk t key
    ({ w with desk }.setTask t (.delayed key push), .rests)
  | _ => (w, .rests)

instance : Cooperative QueueWorld where
  schedule w := w.desk.schedule
  reschedule w s := { w with desk := { w.desk with schedule := s } }
  act := act

inductive Command where
  | push (key : String)
  | pushAll (keys : List String)
  | pushAfter (key : String) (millis : Nat)
  /-- One more consumer asks for a key. -/
  | ask
  /-- The consumer that asked as the so-manieth, counted from zero, gives up. -/
  | abort (consumer : Nat)
  | finish (key : String)
  | close
  | pass (millis : Nat)
deriving DecidableEq, Repr

def pushAfter (w : QueueWorld) (key : String) (millis : Nat) : QueueWorld :=
  if millis = 0 then { w with desk := w.desk.push key }
  else w.spawn (.delayed key (.fresh millis))

def Task.isConsumer : Task → Bool
  | .delayed .. => false
  | .asking | .answered _ | .gaveUp => true

def consumers (w : QueueWorld) : List TaskId :=
  (List.range w.tasks.length).filter fun t => (w.tasks[t]?.map Task.isConsumer).getD false

/-- A consumer that has no answer yet gives up. -/
def abort (w : QueueWorld) (t : TaskId) : QueueWorld :=
  match w.tasks[t]? with
  | some .asking =>
    let desk := w.desk.giveUp t
    { w with desk := { desk with schedule := desk.schedule.rest t } }.setTask t .gaveUp
  | _ => w

def apply (w : QueueWorld) : Command → QueueWorld
  | .push key => { w with desk := w.desk.push key }
  | .pushAll keys => { w with desk := keys.foldl Desk.push w.desk }
  | .pushAfter key millis => w.pushAfter key millis
  | .ask => w.spawn .asking
  | .abort consumer =>
    match w.consumers[consumer]? with
    | some t => w.abort t
    | none => w
  | .finish key => { w with desk := w.desk.finish key }
  | .close => { w with desk := w.desk.close }
  | .pass _ => w

def perform (w : QueueWorld) : Command → QueueWorld
  | .pass millis => Cooperative.pass w millis
  | c => Cooperative.settle (w.apply c)

inductive Answer where
  /-- It was handed a key, or told that none is left. -/
  | key (key : Option String)
  /-- It gave up. -/
  | aborted
deriving DecidableEq, Repr

def Task.answer? : Task → Option Answer
  | .answered key => some (.key key)
  | .gaveUp => some .aborted
  | .asking | .delayed .. => none

def answers (w : QueueWorld) : List (Option Answer) :=
  (w.tasks.filter Task.isConsumer).map Task.answer?

end QueueWorld

end ResourceWatch
