import ResourceWatch.Cache

/-!
# Feeds

A provider opens one stream for each kind. What a stream will deliver stands in
a feed: items that are ready to be taken, or reports of the cluster interface.
A report is first applied to the store of its kind, and then goes through the
kind's tracker, which makes items of it. So the store is never behind what the
stream has delivered.

A feed can be written to before its stream is opened. A feed that is closed
takes nothing more, and its stream ends after the last item.
-/

namespace ResourceWatch

/-- What a stream delivers: an event, or an error that passes. -/
abbrev StreamItem := Except WatchError StreamEvent

/-- What stands in a feed. -/
inductive Arrival where
  /-- An item that is ready to be taken. -/
  | item (item : StreamItem)
  /-- A report that has not been looked at. -/
  | report (event : WatchEvent)
deriving Repr

/-- What the stream of one kind will deliver. -/
structure Feed where
  /-- The kind. -/
  gvk : Gvk
  /-- What stands in the feed, the first thing first. -/
  arrivals : List Arrival := []
  /-- What is known of the objects of the kind. -/
  tracker : Tracker := {}
  /-- Whether more may arrive. -/
  live : Bool := true
  /-- Whether the stream has been opened. -/
  taken : Bool := false
deriving Repr

namespace Feed

/-- The feed with more at its end. A closed feed takes nothing. -/
def arrive (f : Feed) (more : List Arrival) : Feed :=
  if f.live then { f with arrivals := f.arrivals ++ more } else f

/-- The feed after a report has gone through its tracker; the events that it
made are handed back. -/
def track (f : Feed) (e : WatchEvent) : Feed × List Arrival :=
  let (tracker, events) := f.tracker.observe e
  ({ f with tracker }, events.map fun e => .item (.ok e))

end Feed

/-- What opens the streams. -/
structure Provider where
  /-- The feeds of all kinds that were written to or opened. -/
  feeds : List Feed := []
  /-- The kinds whose streams cannot be opened, and why not. -/
  failing : List (Gvk × WatchError) := []
  /-- The kinds whose streams were asked for, in order. -/
  opened : List Gvk := []
  /-- Whether a store is attached for every stream that is opened. -/
  cached : Bool := false
deriving Repr, Inhabited

namespace Provider

/-- The feed of a kind; a new one if there is none. -/
def feed (p : Provider) (gvk : Gvk) : Feed :=
  (p.feeds.find? (·.gvk == gvk)).getD { gvk }

def put (p : Provider) (f : Feed) : Provider :=
  if p.feeds.any (·.gvk == f.gvk) then
    { p with feeds := p.feeds.map fun g => if g.gvk == f.gvk then f else g }
  else { p with feeds := p.feeds ++ [f] }

def arrive (p : Provider) (gvk : Gvk) (more : List Arrival) : Provider :=
  p.put ((p.feed gvk).arrive more)

/-- Nothing more arrives for a kind. A kind without a feed is left alone. -/
def close (p : Provider) (gvk : Gvk) : Provider :=
  if p.feeds.any (·.gvk == gvk) then p.put { p.feed gvk with live := false } else p

/-- The streams of a kind cannot be opened from now on. -/
def fail (p : Provider) (gvk : Gvk) (e : WatchError) : Provider :=
  { p with failing := (gvk, e) :: p.failing }

/-- Open the stream of a kind, and attach its store if that is wanted. Every
request is remembered, whether it succeeds or not. -/
def open? (p : Provider) (cache : Cache) (gvk : Gvk) :
    Provider × Except WatchError Cache :=
  let p := { p with opened := p.opened ++ [gvk] }
  match p.failing.lookup gvk with
  | some e => (p, .error e)
  | none =>
    match if p.cached then cache.attach gvk else .ok cache with
    | .error e => (p, .error e)
    | .ok cache =>
      let f := p.feed gvk
      if f.taken then (p, .error (.streamRegistration gvk .alreadyOpened))
      else (p.put { f with taken := true }, .ok cache)

def requests (p : Provider) (gvk : Gvk) : Nat := p.opened.count gvk

end Provider

end ResourceWatch
