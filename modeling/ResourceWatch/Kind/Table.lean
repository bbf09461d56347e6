import ResourceWatch.Error

/-!
# Kind tables

A resolver turns a resource type into the kind to watch. A kind table is a
resolver with fixed entries; a later entry for a type hides an earlier one.
-/

namespace ResourceWatch

/-- A way to find the kind that a resource type stands for. -/
abbrev Resolver := ResourceId → Except WatchError ResolvedKind

/-- Resolved kinds, the latest entry first. -/
structure KindTable where
  /-- The entries. -/
  kinds : List ResolvedKind := []
deriving DecidableEq, Repr, Inhabited

namespace KindTable

def insert (t : KindTable) (k : ResolvedKind) : KindTable := ⟨k :: t.kinds⟩

def find? (t : KindTable) (id : ResourceId) : Option ResolvedKind :=
  t.kinds.find? (·.id == id)

def resolve (t : KindTable) : Resolver := fun id =>
  match t.find? id with
  | some k => .ok k
  | none => .error (.unknownKind id .noMatch)

/-- A kind of the core group in version `v1`. -/
def coreKind (kind plural : String) (namespaced : Bool) : ResolvedKind where
  id := .core "v1" plural
  api := .ofGvk ⟨"", "v1", kind⟩ plural
  namespaced := namespaced

/-- The core kinds that most input sets refer to. -/
def builtin : KindTable :=
  ⟨[coreKind "ConfigMap" "configmaps" true, coreKind "Secret" "secrets" true,
    coreKind "Node" "nodes" false, coreKind "Namespace" "namespaces" false,
    coreKind "Pod" "pods" true, coreKind "Service" "services" true]⟩

/-- A kind under a type of the caller's choice, served under the type's
plural. -/
def customKind (id : ResourceId) (gvk : Gvk) (namespaced : Bool) : ResolvedKind where
  id := id
  api := .ofGvk gvk id.resource
  namespaced := namespaced

end KindTable

end ResourceWatch
