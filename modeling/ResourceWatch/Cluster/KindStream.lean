import ResourceWatch.Cluster.Watcher
import ResourceWatch.Engine.Feed

/-!
# Streams of kinds

The stream of a kind begins with a watcher. Each report is applied to the store
of the kind, and then goes through the kind's tracker, which says what is
delivered. A fault is delivered as it is and touches nothing. The watcher moves
only as long as somebody reads what is delivered.
-/

namespace ResourceWatch

/-- What a watcher tells, as it arrives in a feed. -/
def WatchReport.arrival : WatchReport → Arrival
  | .ok e => .report e
  | .error fault => .item (.error (.stream fault.text))

/-- A kind whose stream is being read. -/
structure KindStream where
  /-- The kind. -/
  gvk : Gvk
  /-- Where its objects are stored. -/
  cache : Cache
  /-- What is known of its objects. -/
  tracker : Tracker := {}
  /-- The requests that were made for it. -/
  requests : List Target := []
  /-- What its stream has delivered. -/
  delivered : List StreamItem := []
deriving Repr

namespace KindStream

def start (cache : Cache) (kind : ResolvedKind) : Except WatchError KindStream := do
  return { gvk := kind.gvk, cache := ← cache.attach kind.gvk }

/-- Take one thing that has arrived. -/
def take (s : KindStream) : Arrival → KindStream
  | .item i => { s with delivered := s.delivered ++ [i] }
  | .report e =>
    let (tracker, events) := s.tracker.observe e
    { s with
      cache := s.cache.apply s.gvk e
      tracker
      delivered := s.delivered ++ events.map .ok }

def follow (s : KindStream) : WatchStep → KindStream
  | .asked target => { s with requests := s.requests ++ [target] }
  | .told report => s.take report.arrival

/-- Read a stream until `most` items are delivered or the watcher does no more. -/
def read (most : Nat) : KindStream → List WatchStep → KindStream
  | s, [] => { s with delivered := s.delivered.take most }
  | s, step :: rest =>
    if most ≤ s.delivered.length then { s with delivered := s.delivered.take most }
    else read most (s.follow step) rest

end KindStream

end ResourceWatch
