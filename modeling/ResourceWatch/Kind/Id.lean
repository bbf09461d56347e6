/-!
# Resource types and object kinds

The cluster interface names a type of object in two ways. A `ResourceId` is the
name in a request path: API group, version and plural. A `Gvk` is the name that
the objects themselves carry: API group, version and kind. The core group is
the empty text and is left out where names are printed.
-/

namespace ResourceWatch

/-- An API group joined with a version, or the version alone for the core
group. This is the form in which objects carry their type. -/
def apiVersionOf (group version : String) : String :=
  if group.isEmpty then version else group ++ "/" ++ version

/-- A watchable resource type, by the words of its request path. -/
structure ResourceId where
  /-- API group; empty for the core group. -/
  group : String
  /-- API version, such as `v1`. -/
  version : String
  /-- Plural name, such as `configmaps`. -/
  resource : String
deriving DecidableEq, Repr, Inhabited

namespace ResourceId

/-- A resource type of the core group. -/
def core (version resource : String) : ResourceId := ⟨"", version, resource⟩

/-- The group and version in the form that objects carry. -/
def apiVersion (id : ResourceId) : String := apiVersionOf id.group id.version

/-- `resource.version`, and `.group` after it outside the core group. -/
def text (id : ResourceId) : String :=
  let short := id.resource ++ "." ++ id.version
  if id.group.isEmpty then short else short ++ "." ++ id.group

/-- Whether `a` comes no later than `b` when types are ordered by group, then by
version, then by plural. -/
def le (a b : ResourceId) : Bool :=
  a.group < b.group ||
    (a.group == b.group && (a.version < b.version ||
      (a.version == b.version && a.resource ≤ b.resource)))

end ResourceId

/-- An object kind: API group, version and kind. -/
structure Gvk where
  /-- API group; empty for the core group. -/
  group : String
  /-- API version. -/
  version : String
  /-- Kind, such as `ConfigMap`. -/
  kind : String
deriving DecidableEq, Repr, Inhabited

namespace Gvk

def apiVersion (g : Gvk) : String := apiVersionOf g.group g.version

/-- `group/version, Kind=kind`, without the group for the core group. -/
def text (g : Gvk) : String := g.apiVersion ++ ", Kind=" ++ g.kind

/-- The kind that an object's own type words name. An object with an empty word
names none. The group is what stands before the first slash of the API version,
and empty when there is no slash. -/
def ofTypeWords? (apiVersion kind : String) : Option Gvk :=
  if apiVersion.isEmpty || kind.isEmpty then none
  else
    let (before, rest) := apiVersion.toList.span (· != '/')
    match rest with
    | [] => some ⟨"", apiVersion, kind⟩
    | _ :: after => some ⟨String.ofList before, String.ofList after, kind⟩

end Gvk

end ResourceWatch
