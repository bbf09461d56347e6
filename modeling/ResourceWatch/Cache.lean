import ResourceWatch.Error
import ResourceWatch.Tracker

/-!
# The object cache

Each watched kind has a store that holds its objects as the cluster interface
last reported them. Reports outside of a full list change the store at once. A
full list is gathered on the side and takes the place of the store when it is
complete.

An object is stored under its name and its namespace as they stand in the
object: an empty namespace is not the same as a missing one. A look-up by an
empty namespace asks for a missing one.
-/

namespace ResourceWatch

/-- The place of an object in a store. -/
structure StoreKey where
  /-- Its namespace, if it has one. -/
  ns : Option String
  /-- Its name; empty if it has none. -/
  name : String
deriving DecidableEq, Repr, Inhabited

def StoreKey.of (o : Object) : StoreKey := ⟨o.metadata.ns, o.metadata.name.getD ""⟩

/-- The objects of one kind. -/
structure Store where
  /-- The objects that are to be found. -/
  objects : List (StoreKey × Object) := []
  /-- What the open full list has named so far. -/
  gathered : List (StoreKey × Object) := []
deriving DecidableEq, Repr, Inhabited

namespace Store

def put (o : Object) (entries : List (StoreKey × Object)) : List (StoreKey × Object) :=
  (StoreKey.of o, o) :: entries.filter (·.1 != StoreKey.of o)

def apply (s : Store) : WatchEvent → Store
  | .listBegin => { s with gathered := [] }
  | .listed o => { s with gathered := put o s.gathered }
  | .listEnd => ⟨s.gathered, []⟩
  | .applied o => { s with objects := put o s.objects }
  | .deleted o => { s with objects := s.objects.filter (·.1 != StoreKey.of o) }

def at? (s : Store) (key : StoreKey) : Option Object :=
  (s.objects.find? (·.1 == key)).map (·.2)

/-- The object at a place or, failing that, the one of the same name without a
namespace. -/
def get? (s : Store) (key : StoreKey) : Option Object :=
  s.at? key <|> s.at? { key with ns := none }

end Store

/-- The stores of all watched kinds. -/
structure Cache where
  /-- The stores in the order in which they were attached. -/
  stores : List (Gvk × Store) := []
deriving DecidableEq, Repr, Inhabited

namespace Cache

def store? (c : Cache) (gvk : Gvk) : Option Store := (c.stores.find? (·.1 == gvk)).map (·.2)

def contains (c : Cache) (gvk : Gvk) : Bool := (c.store? gvk).isSome

/-- Give a kind its store. A kind has one at most. -/
def attach (c : Cache) (gvk : Gvk) : Except WatchError Cache :=
  if c.contains gvk then .error (.streamRegistration gvk .alreadyRegistered)
  else .ok ⟨c.stores ++ [(gvk, default)]⟩

/-- Apply a report to the store of a kind; nothing happens without one. -/
def apply (c : Cache) (gvk : Gvk) (e : WatchEvent) : Cache :=
  ⟨c.stores.map fun (g, s) => if g == gvk then (g, s.apply e) else (g, s)⟩

/-- Look an object up. -/
def get? (c : Cache) (gvk : Gvk) (ns name : String) : Option Object :=
  (c.store? gvk).bind fun s => s.get? ⟨if ns.isEmpty then none else some ns, name⟩

/-- The kinds that have a store, for messages. -/
def text (c : Cache) : String :=
  let kinds := Text.quotedList (c.stores.map (·.1.text))
  s!"ObjectCache \x7b kinds: {kinds} \x7d"

end Cache

end ResourceWatch
