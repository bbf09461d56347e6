import ResourceWatch.Kind.Table

/-!
# Catalogs

A catalog is what a cluster says of the kinds that it serves. It resolves a type
only if the cluster lets its objects be watched.
-/

namespace ResourceWatch

structure ServedKind where
  /-- The kind. -/
  kind : ResolvedKind
  /-- Whether its objects can be watched. -/
  watchable : Bool
deriving DecidableEq, Repr

/-- The kinds that a cluster serves, each type once. -/
structure Catalog where
  /-- The kinds, the latest one first. -/
  kinds : List ServedKind := []
deriving DecidableEq, Repr, Inhabited

namespace Catalog

/-- The catalog with a kind, which takes the place of another one of its type. -/
def insert (c : Catalog) (k : ServedKind) : Catalog :=
  ⟨k :: c.kinds.filter (·.kind.id != k.kind.id)⟩

def ofList (kinds : List ServedKind) : Catalog := kinds.foldl insert {}

/-- How many types the catalog has. -/
def size (c : Catalog) : Nat := c.kinds.length

def isEmpty (c : Catalog) : Bool := c.kinds.isEmpty

def find? (c : Catalog) (id : ResourceId) : Option ServedKind :=
  c.kinds.find? (·.kind.id == id)

def resolve (c : Catalog) : Resolver := fun id =>
  match c.find? id with
  | none => .error (.unknownKind id .noMatch)
  | some k => if k.watchable then .ok k.kind else .error (.unknownKind id .notWatchable)

end Catalog

end ResourceWatch
