import ResourceWatch.Change.Notification

/-!
# Tracking a watched kind

The cluster interface reports a new full list where it should report the
deletions that were missed in between. A tracker remembers what it knows of
every object, so that an object that a full list no longer names can be reported
as deleted. It also tells an object that appears from one that changes, and says
when the first full list is complete.
-/

namespace ResourceWatch

/-- What the cluster interface reports about a kind. A full list begins, names
its objects and ends; outside of it, objects change one by one. -/
inductive WatchEvent where
  /-- A full list begins. -/
  | listBegin
  /-- The full list names an object. -/
  | listed (object : Object)
  /-- The full list is complete. -/
  | listEnd
  /-- An object was added or changed. -/
  | applied (object : Object)
  /-- An object was deleted. -/
  | deleted (object : Object)
deriving DecidableEq, Repr

/-- What is known of the objects of one kind. -/
structure Tracker where
  /-- The last state of every object, by its tracking text. -/
  known : List (String × Object) := []
  /-- The objects that the open full list has named so far. -/
  listing : Option (List String) := none
  /-- Whether a full list has been completed. -/
  hydrated : Bool := false
deriving DecidableEq, Repr, Inhabited

namespace Tracker

def find? (t : Tracker) (key : String) : Option Object :=
  (t.known.find? (·.1 == key)).map (·.2)

def remember (t : Tracker) (key : String) (o : Object) : Tracker :=
  { t with known := (key, o) :: t.known.filter (·.1 != key) }

def forget (t : Tracker) (key : String) : Tracker :=
  { t with known := t.known.filter (·.1 != key) }

/-- Note that the open full list, if there is one, names an object. -/
def mention (t : Tracker) (key : String) : Tracker :=
  { t with listing := t.listing.map fun keys => if keys.contains key then keys else keys ++ [key] }

/-- Take in the state of an object. An object without a name cannot be tracked
and is reported as it is. -/
def apply (t : Tracker) (o : Object) : Tracker × Notification :=
  match o.key? with
  | none => (t, .added o)
  | some key =>
    (t.remember key o.remembered, if (t.find? key).isSome then .updated o else .added o)

/-- The objects that are known but were not named by the full list, in the order
of their tracking texts. -/
def missing (t : Tracker) : List (String × Object) :=
  let named := t.listing.getD []
  (t.known.filter fun entry => !named.contains entry.1).mergeSort fun a b => a.1 ≤ b.1

/-- Close the full list: forget and report what it did not name. The first one
completes the backfill. -/
def close (t : Tracker) : Tracker × List StreamEvent :=
  let gone := t.missing
  let kept := t.known.filter fun entry => !(gone.map (·.1)).contains entry.1
  let deletions := gone.map fun (key, o) => StreamEvent.change (.deleted (.unseen key (some o)))
  ({ known := kept, listing := none, hydrated := true },
    deletions ++ if t.hydrated then [] else [.hydrated])

def observe (t : Tracker) : WatchEvent → Tracker × List StreamEvent
  | .listBegin => ({ t with listing := some [] }, [])
  | .listed o =>
    let (t, n) := (o.key?.elim t t.mention).apply o
    (t, [.change n])
  | .applied o =>
    let (t, n) := t.apply o
    (t, [.change n])
  | .deleted o => (o.key?.elim t t.forget, [.change (.deleted (.live o))])
  | .listEnd => t.close

def observeAll (t : Tracker) (events : List WatchEvent) : Tracker :=
  events.foldl (fun t e => (t.observe e).1) t

end Tracker

end ResourceWatch
