import ResourceWatch.Engine.World

/-!
# Opening streams and waiting for them

Streams are opened in plan order. The first that cannot be opened, or a token
that has fired before one is, undoes the whole: the pumps of the streams that
were opened are to end.

Waiting goes through the streams in plan order too. A stream that has ended
without its first full list fails the waiting when its turn comes. A token that
has fired wins over everything else, and what the streams have told by then wins
over the time limit.
-/

namespace ResourceWatch.Engine

/-- Open the streams of watches, on top of those that are open already. -/
def openStreams (w : Engine) (r : Registration) :
    List PlannedWatch → Engine × Except WatchError Registration
  | [] => (w, .ok r)
  | watch :: rest =>
    if w.fired then (w.drop r, .error .cancelled)
    else
      let gvk := watch.kind.gvk
      match w.provider.open? w.shop.cache gvk with
      | (provider, .error e) => ({ w with provider }.drop r, .error e)
      | (provider, .ok cache) =>
        let t := w.nextTask
        let w := { w with provider, shop := { w.shop with cache } }.spawn (.pump { gvk })
        w.openStreams
          { kinds := r.kinds ++ [gvk], pumps := r.pumps ++ [t]
            pending := r.pending ++ [(gvk, t)] } rest

def register (w : Engine) : Engine × Except WatchError Registration :=
  match w.openStreams {} w.plan.watches with
  | (w, .ok r) => ({ w with streams := some r.kinds.length }, .ok r)
  | (w, .error e) => (w, .error e)

/-- Go through the streams that are waited for: those that have delivered their
first full list are left behind. The rest is empty if none is left, and the
answer is an error if the next one has ended. -/
def hydrate (w : Engine) : List (Gvk × TaskId) → Except WatchError (List (Gvk × TaskId))
  | [] => .ok []
  | (gvk, t) :: rest =>
    match w.pump? t with
    | some p =>
      if p.hydrated then w.hydrate rest
      else if p.state = .ended then .error (.streamClosed gvk)
      else .ok ((gvk, t) :: rest)
    | none => .error (.streamClosed gvk)

/-- What waiting for streams has come to, if it has come to an end; and the
streams that are left to wait for. The token of whoever waits has fired or has
not. -/
def hydration (w : Engine) (fired : Bool) (pending : List (Gvk × TaskId)) (limit : Duration)
    (due : Nat) : Except (Except WatchError Unit) (List (Gvk × TaskId)) :=
  if fired then .error (.error .cancelled)
  else match w.hydrate pending with
    | .error e => .error (.error e)
    | .ok [] => .error (.ok ())
    | .ok rest => if due ≤ w.now then .error (.error (.syncTimeout limit)) else .ok rest

def clearTimers (w : Engine) (t : TaskId) : Engine :=
  w.onDesk fun d => { d with schedule := d.schedule.clearTimers t }

/-- Set a timer that is due after a duration. The second part is when. -/
def setTimer (w : Engine) (t : TaskId) (limit : Duration) : Engine × Nat :=
  let due := w.now + limit.millisUp
  (w.onDesk fun d => { d with schedule := d.schedule.setTimer due t }, due)

/-- Nobody beside the pumps writes to the channel any more. -/
def dropSpare (w : Engine) : Engine := { w with spare := false }.noticeSilence

def endStartup (w : Engine) (t : TaskId) (result : Except WatchError Registration) : Engine :=
  let w := match result with
    | .ok r => if w.calls.contains t then { w with kept := some r } else w
    | .error _ => w
  (w.setTask t (.startup (.ended result))).wakeAwaiting t

def actStartup (w : Engine) (t : TaskId) : Startup → Engine × Progress
  | .fresh =>
    match w.register with
    | (w, .error e) =>
      (((w.settleGate .cancelled).dropSpare).endStartup t (.error e), .rests)
    | (w, .ok r) =>
      let (w, due) := w.dropSpare.setTimer t w.limit
      (w.setTask t (.startup (.hydrating { r with pending := [] } r.pending due)), .goesOn)
  | .hydrating r pending due =>
    match w.hydration w.fired pending w.limit due with
    | .ok rest => (w.setTask t (.startup (.hydrating r rest due)), .rests)
    | .error (.ok ()) =>
      let w := { (w.clearTimers t).settleGate .synced with synced := true }
      (w.endStartup t (.ok r), .rests)
    | .error (.error e) =>
      ((((w.clearTimers t).drop r).settleGate .cancelled).endStartup t (.error e), .rests)
  | .ended result => (w.setTask t (.startup (.ended result)), .rests)

/-- Wait to use the kept registration. Whoever asks first uses it first; the
answer is whether the task may use it. -/
def acquire (w : Engine) (t : TaskId) : Engine × Bool :=
  let w := if w.lock.contains t then w else { w with lock := w.lock ++ [t] }
  (w, w.lock.head? == some t)

/-- The task does not use the kept registration any more; the next one may. -/
def release (w : Engine) (t : TaskId) : Engine :=
  let w := { w with lock := w.lock.erase t }
  w.wakeAll w.lock.head?.toList

/-- A call that waits for the streams of the kept registration goes on. Only the
first such call waits; it takes the streams with it. -/
def actHydration (w : Engine) (t : TaskId) : HydrationCall → Engine × Progress
  | .locking limit token =>
    match w.acquire t with
    | (w, false) => (w, .rests)
    | (w, true) =>
      match w.kept with
      | none => ((w.release t).setTask t (.hydration (.ended none)), .rests)
      | some r =>
        let (w, due) := { w with kept := some { r with pending := [] } }.setTimer t limit
        (w.setTask t (.hydration (.hydrating r.pending limit due token)), .goesOn)
  | .hydrating pending limit due token =>
    match w.hydration (token.fired w.fired) pending limit due with
    | .ok rest => (w.setTask t (.hydration (.hydrating rest limit due token)), .rests)
    | .error result =>
      (((w.clearTimers t).release t).setTask t (.hydration (.ended (some result))), .rests)
  | .ended result => (w.setTask t (.hydration (.ended result)), .rests)
  | .dropped => (w.setTask t (.hydration .dropped), .rests)

/-- A call that waits for streams is given up: nobody waits for the streams that
it has taken. One that has ended is left alone. -/
def dropHydration (w : Engine) (t : TaskId) : Engine :=
  match w.tasks[t]? with
  | some (.hydration (.locking ..)) | some (.hydration (.hydrating ..)) =>
    ((w.clearTimers t).release t).setTask t (.hydration .dropped)
  | _ => w

/-- The token of a call fires, if it is one of its own. -/
def fireCall (w : Engine) (t : TaskId) : Engine :=
  match w.tasks[t]? with
  | some (.hydration call) => (w.setTask t (.hydration call.fire)).wakeAll [t]
  | _ => w

/-- A call that waits until every stream has ended goes on. -/
def actJoin (w : Engine) (t : TaskId) : JoinCall → Engine × Progress
  | .locking =>
    match w.acquire t with
    | (w, false) => (w, .rests)
    | (w, true) =>
      match w.kept with
      | none => ((w.release t).setTask t (.join (.ended false)), .rests)
      | some r =>
        (({ w with kept := none }.release t).setTask t (.join (.joining r.pumps)), .goesOn)
  | .joining pumps =>
    if pumps.all w.hasEnded then (w.setTask t (.join (.ended true)), .rests) else (w, .rests)
  | .ended found => (w.setTask t (.join (.ended found)), .rests)

end ResourceWatch.Engine
