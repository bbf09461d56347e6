/-!
# The work queue

Keys wait in the order in which they came, and no key waits twice. A key that is
handed out is in flight until it is reported done. A push of a key in flight is
held back; the key joins the queue again when it is done, so that no key is ever
handed out twice at a time. After the queue is closed no push counts, but what
was pushed before is still handed out.

A key is dirty from the push that counted until it is handed out.
-/

namespace ResourceWatch

/-- Keys that wait, and keys that are being worked on. -/
structure WorkQueue where
  /-- The keys that can be handed out, the next one first. -/
  queue : List String := []
  /-- The keys that have been pushed and not handed out since. -/
  dirty : List String := []
  /-- The keys that have been handed out and not reported done since. -/
  inFlight : List String := []
  /-- Whether pushes count no more. -/
  closed : Bool := false
deriving DecidableEq, Repr, Inhabited

inductive PushOutcome where
  /-- The key joined the queue. -/
  | queued
  /-- The key is in flight and joins the queue when it is done. -/
  | deferred
  /-- The key waits already, or the queue is closed. -/
  | ignored
deriving DecidableEq, Repr

namespace WorkQueue

def push (q : WorkQueue) (key : String) : WorkQueue × PushOutcome :=
  if q.closed || q.dirty.contains key then (q, .ignored)
  else
    let q := { q with dirty := q.dirty ++ [key] }
    if q.inFlight.contains key then (q, .deferred)
    else ({ q with queue := q.queue ++ [key] }, .queued)

def take? (q : WorkQueue) : Option (String × WorkQueue) :=
  match q.queue with
  | [] => none
  | key :: rest =>
    some (key, { q with
      queue := rest
      dirty := q.dirty.erase key
      inFlight := if q.inFlight.contains key then q.inFlight else q.inFlight ++ [key] })

/-- Report a key done. It joins the queue again if it was pushed meanwhile; the
second part says whether it did. -/
def finish (q : WorkQueue) (key : String) : WorkQueue × Bool :=
  let q := { q with inFlight := q.inFlight.erase key }
  if q.dirty.contains key then ({ q with queue := q.queue ++ [key] }, true) else (q, false)

/-- Let no further push count. -/
def close (q : WorkQueue) : WorkQueue := { q with closed := true }

end WorkQueue

end ResourceWatch
