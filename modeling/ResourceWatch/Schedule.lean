/-!
# Cooperative tasks under a virtual clock

Everything that waits in this library is a task: a program counter in a world,
moved by one function. A task that can go on is ready. It runs until it must
wait, and whatever it does may make others ready. Ready tasks stand in the order
in which they became so, and no task stands there twice. Time passes only when
nothing else can move; it passes in milliseconds, and a timer makes its task
ready when its time has come.

`Moves` leaves open which ready task runs next, so a statement about it holds
for every order. `settle` runs them first come, first served; it is one of those
orders.
-/

namespace ResourceWatch

/-- The number of a task in its world. -/
abbrev TaskId := Nat

/-- A time at which a task is to be made ready. -/
structure Timer where
  /-- When, in milliseconds. -/
  due : Nat
  /-- Whom. -/
  task : TaskId
deriving DecidableEq, Repr, Inhabited

structure Schedule where
  /-- The time, in milliseconds. -/
  now : Nat := 0
  /-- The tasks that can go on, the one that waits longest first. -/
  ready : List TaskId := []
  /-- The timers in the order in which they were set. -/
  timers : List Timer := []
deriving DecidableEq, Repr, Inhabited

namespace Schedule

def wake (s : Schedule) (t : TaskId) : Schedule :=
  if t ∈ s.ready then s else { s with ready := s.ready ++ [t] }

def wakeAll (s : Schedule) (ts : List TaskId) : Schedule := ts.foldl wake s

/-- The task waits, or has ended. -/
def rest (s : Schedule) (t : TaskId) : Schedule := { s with ready := s.ready.erase t }

/-- Set a timer. -/
def setTimer (s : Schedule) (due : Nat) (t : TaskId) : Schedule :=
  { s with timers := s.timers ++ [⟨due, t⟩] }

/-- How long a task may sleep: thirty years, in milliseconds. -/
def longestSleep : Nat := 30 * 365 * 24 * 60 * 60 * 1000

/-- When a task wakes that is to sleep for so many milliseconds from now on. -/
def wakingTime (s : Schedule) (millis : Nat) : Nat := s.now + Nat.min millis longestSleep

def clearTimers (s : Schedule) (t : TaskId) : Schedule :=
  { s with timers := s.timers.filter (·.task != t) }

/-- The earliest time at which a timer is due, no later than `limit`. -/
def nextDue? (s : Schedule) (limit : Nat) : Option Nat :=
  ((s.timers.map (·.due)).filter (· ≤ limit)).min?

/-- Let it be `time`, and make the tasks of all timers due by then ready, earlier
times first and equal times in the order in which they were set. -/
def elapse (s : Schedule) (time : Nat) : Schedule :=
  let due := (s.timers.filter (·.due ≤ time)).mergeSort fun a b => a.due ≤ b.due
  { s with now := time, timers := s.timers.filter (time < ·.due) }.wakeAll (due.map Timer.task)

end Schedule

/-- Whether a task that has run can go on at once. -/
inductive Progress where
  /-- It can; nothing else needs to happen first. -/
  | goesOn
  /-- It waits for something, or has ended. -/
  | rests
deriving DecidableEq, Repr

/-- A world of cooperative tasks. -/
class Cooperative (World : Type) where
  /-- When tasks run. -/
  schedule : World → Schedule
  /-- The world under another schedule. -/
  reschedule : World → Schedule → World
  /-- A task goes on to the next point at which it could be looked at from
  outside. -/
  act : World → TaskId → World × Progress

namespace Cooperative

variable {World : Type} [Cooperative World]

/-- One move of a task. It stays ready exactly if it can go on. -/
def run (w : World) (t : TaskId) : World :=
  match act w t with
  | (w', .goesOn) => w'
  | (w', .rests) => reschedule w' ((schedule w').rest t)

/-- Nothing can move. -/
def Idle (w : World) : Prop := (schedule w).ready = []

/-- Some ready task moves. -/
inductive Moves : World → World → Prop where
  | run {w : World} {t : TaskId} (ready : t ∈ (schedule w).ready) : Moves w (run w t)

/-- How many moves a world is given to come to rest. No world here needs as
many. -/
def patience : Nat := 1000000

/-- Run ready tasks first come, first served, at most `fuel` moves. -/
def settleWith : Nat → World → World
  | 0, w => w
  | fuel + 1, w =>
    match (schedule w).ready with
    | [] => w
    | t :: _ => settleWith fuel (run w t)

/-- Run ready tasks first come, first served, until nothing can move. -/
def settle (w : World) : World := settleWith patience w

/-- Let time pass up to `time`, and let everything that becomes due on the way
happen at its time, for at most `fuel` different times. -/
def passTo (time : Nat) : Nat → World → World
  | 0, w => w
  | fuel + 1, w =>
    match (schedule w).nextDue? time with
    | some due => passTo time fuel (settle (reschedule w ((schedule w).elapse due)))
    | none => settle (reschedule w ((schedule w).elapse time))

def pass (w : World) (millis : Nat) : World :=
  passTo ((schedule w).now + millis) patience w

end Cooperative

end ResourceWatch
