import ResourceWatch.Schedule

/-!
# Bells

A bell wakes tasks that wait for the work queue. One ring wakes the task that has
waited longest; if nobody waits, the ring is kept, and the next task that would
wait goes on instead. At most one ring is kept. A ring for all wakes everybody
who waits and is never kept.

A task that one ring has woken owes that ring until it goes on. If it gives up
before, the ring passes to the next task.
-/

namespace ResourceWatch

/-- Who waits for a bell, and what rings are on their way. -/
structure Bell where
  /-- The tasks that wait, the one that waits longest first. -/
  waiting : List TaskId := []
  /-- The tasks that one ring has woken and that have not gone on since. -/
  owing : List TaskId := []
  /-- Whether a ring is kept. -/
  kept : Bool := false
deriving DecidableEq, Repr, Inhabited

namespace Bell

/-- Ring once. The second part is the task to make ready. -/
def ring (b : Bell) : Bell × Option TaskId :=
  match b.waiting with
  | [] => ({ b with kept := true }, none)
  | t :: rest => ({ b with waiting := rest, owing := b.owing ++ [t] }, some t)

/-- Ring for everybody. The second part names the tasks to make ready. -/
def ringAll (b : Bell) : Bell × List TaskId := ({ b with waiting := [] }, b.waiting)

/-- A task goes on; the ring that woke it is used up. -/
def goOn (b : Bell) (t : TaskId) : Bell := { b with owing := b.owing.erase t }

/-- A task would wait: a kept ring lets it go on at once, or else it joins those
who wait. The second part says whether it goes on. -/
def await (b : Bell) (t : TaskId) : Bell × Bool :=
  if b.kept then ({ b with kept := false }, true)
  else ({ b with waiting := b.waiting ++ [t] }, false)

/-- A task gives up, whether it waits or has been woken; a ring that it owes
passes on. The second part is the task to make ready. -/
def giveUp (b : Bell) (t : TaskId) : Bell × Option TaskId :=
  if t ∈ b.owing then ring { b with owing := b.owing.erase t }
  else ({ b with waiting := b.waiting.erase t }, none)

end Bell

end ResourceWatch
