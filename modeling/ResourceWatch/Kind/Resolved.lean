import ResourceWatch.Kind.Id
import ResourceWatch.Object

/-!
# Resolved kinds

A declaration names a resource type; a watch needs the kind of the objects and
the words of their requests. A resolved kind holds both, with the scope of the
objects.
-/

namespace ResourceWatch

structure ApiResource where
  /-- API group. -/
  group : String
  /-- API version. -/
  version : String
  /-- Group and version as the objects carry them. -/
  apiVersion : String
  /-- Kind of the objects. -/
  kind : String
  /-- Plural name in request paths. -/
  plural : String
deriving DecidableEq, Repr, Inhabited

namespace ApiResource

/-- The resource that serves a kind under a plural, with the API version that
the kind's group and version give. -/
def ofGvk (g : Gvk) (plural : String) : ApiResource :=
  ⟨g.group, g.version, g.apiVersion, g.kind, plural⟩

end ApiResource

/-- A resource type together with the kind it stands for. -/
structure ResolvedKind where
  /-- The type that was resolved. -/
  id : ResourceId
  /-- How the kind is served. -/
  api : ApiResource
  /-- Whether objects of the kind live in a namespace. -/
  namespaced : Bool
deriving DecidableEq, Repr, Inhabited

namespace ResolvedKind

/-- The kind of the objects. Two resource types may share one. -/
def gvk (k : ResolvedKind) : Gvk := ⟨k.api.group, k.api.version, k.api.kind⟩

def text (k : ResolvedKind) : String := k.gvk.text

/-- An object of the kind with a name and nothing else. -/
def emptyObject (k : ResolvedKind) (name : String) : Object where
  types := some ⟨k.api.apiVersion, k.api.kind⟩
  metadata := { name := some name }
  data := .null

end ResolvedKind

end ResourceWatch
