import ResourceWatch.Engine.World

/-!
# Pumps

A pump takes what its stream delivers, one thing after the other, and passes each
change on before it takes the next. It ends when its token fires or it is to end,
even while a change of it waits for room; when the channel is closed; and when
its stream has ended.
-/

namespace ResourceWatch.Engine

/-- A pump ends: a change of it that waits for room is withdrawn, and everybody
who waits for the pump or for a last sender is made ready. -/
def endPump (w : Engine) (t : TaskId) (p : Pump) : Engine :=
  let (channel, next) := w.channel.withdraw t
  let w := { w with channel }.setTask t (.pump { p with state := .ended })
  ((w.wakeAll next.toList).wakeAwaiting t).noticeSilence

def offer (w : Engine) (t : TaskId) (p : Pump) (e : ChangeEvent) : Engine × Progress :=
  match w.channel.offer t e with
  | (channel, .sent) =>
    let w := (({ w with channel }.note (.entered e)).wakeListener).note (.handled .forwarded)
    (w.setTask t (.pump { p with state := .listening }), .goesOn)
  | (channel, .refused) => (({ w with channel }.note (.handled .closed)).endPump t p, .rests)
  | (channel, .wait) =>
    ({ w with channel }.setTask t (.pump { p with state := .sending e }), .rests)

def deliver (w : Engine) (t : TaskId) (p : Pump) : StreamItem → Engine × Progress
  | .ok (.change n) =>
    let (verdict, log) := w.plan.filterTable.judge p.gvk n
    let w := w.log log
    match verdict with
    | .drop outcome => (w.note (.handled outcome), .goesOn)
    | .forward e => w.offer t p e
  | .ok .hydrated =>
    ((w.setTask t (.pump { p with hydrated := true })).wakeAwaiting t, .goesOn)
  | .error _ => (w.note .streamFailed, .goesOn)

def listen (w : Engine) (t : TaskId) (p : Pump) : Engine × Progress :=
  let feed := w.provider.feed p.gvk
  match feed.arrivals with
  | [] => if feed.live then (w, .rests) else (w.endPump t p, .rests)
  | .item item :: rest =>
    { w with provider := w.provider.put { feed with arrivals := rest } }.deliver t p item
  | .report e :: rest =>
    let (feed, made) := feed.track e
    ({ w with
        provider := w.provider.put { feed with arrivals := made ++ rest }
        shop := { w.shop with cache := w.shop.cache.apply p.gvk e } }, .goesOn)

def actPump (w : Engine) (t : TaskId) (p : Pump) : Engine × Progress :=
  match p.state with
  | .ended => (w, .rests)
  | .listening => if p.aborted || w.fired then (w.endPump t p, .rests) else w.listen t p
  | .sending e => if p.aborted || w.fired then (w.endPump t p, .rests) else w.offer t p e

/-- The pumps of a kind are made ready, because something has arrived. -/
def wakePumps (w : Engine) (gvk : Gvk) : Engine :=
  w.wakeAll (w.tasksWhere fun
    | .pump p => p.gvk == gvk && p.state == .listening
    | _ => false)

end ResourceWatch.Engine
