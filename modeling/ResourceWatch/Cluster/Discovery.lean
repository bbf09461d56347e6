import ResourceWatch.Cluster.Reply
import ResourceWatch.Kind.Catalog
import ResourceWatch.Kind.Maturity
import ResourceWatch.Target

/-!
# Discovery

A cluster lists its API groups, each with its versions, and under every version
the resources that it serves. The core group has a place of its own. Discovery
asks for all of these lists and makes a catalog of them. It fails as a whole if
one of them cannot be asked for or had, or if a group has no version.
-/

namespace ResourceWatch

open Json (Decoder)
open Json.Decoder (RecordField text textWhere bool optional list record)

abbrev Site := String → Reply

def Site.ask {α : Type} (site : Site) (d : Decoder α) (target : String) :
    Except WatchError α :=
  match Target.ofText? target with
  | none => .error .cluster
  | some t => ((site t.path).read? d).elim (.error .cluster) .ok

namespace Discovery

/-- The members that name the type of a record. Where they come, they name this
one. -/
def typeFields {σ : Type} (kind : String) : List (RecordField σ) :=
  [ .checked (textWhere (· == "v1")) "apiVersion", .checked (textWhere (· == kind)) "kind" ]

/-- A member that is a text, and empty if it is missing. -/
def textField {σ : Type} (name : String) (put : σ → String → σ) : RecordField σ :=
  .kept name (optional text) fun known v => put known (v.getD "")

/-- A member that is a list, and empty if it is missing. -/
def listField {α σ : Type} (name : String) (d : Decoder α) (put : σ → List α → σ) :
    RecordField σ :=
  .kept name (optional (list d)) fun known v => put known (v.getD [])

/-- A resource as a list of resources names it. -/
structure Resource where
  /-- Its plural name. Behind a slash stands a part of another resource. -/
  name : String := ""
  /-- The kind of its objects. -/
  kind : String := ""
  /-- Its own API group, where it differs from that of the list. -/
  group : Option String := none
  /-- Its own API version, where it differs from that of the list. -/
  version : Option String := none
  /-- Whether its objects live in a namespace. -/
  namespaced : Bool := false
  /-- What can be done with its objects. -/
  verbs : List String := []
deriving DecidableEq, Repr

def Resource.decoder : Decoder Resource :=
  record ([
    textField "name" fun r v => { r with name := v },
    textField "kind" fun r v => { r with kind := v },
    .kept "group" (optional text) fun r v => { r with group := v },
    .kept "version" (optional text) fun r v => { r with version := v },
    .kept "namespaced" (optional bool) fun r v => { r with namespaced := v.getD false },
    listField "verbs" text fun r v => { r with verbs := v }] ++
    ["singularName", "storageVersionHash"].map (.checked (optional text)) ++
    ["categories", "shortNames"].map (.checked (optional (list text)))) {}

structure ResourceList where
  /-- Group and version, joined. -/
  groupVersion : String := ""
  /-- The resources. -/
  resources : List Resource := []
deriving DecidableEq, Repr

def ResourceList.decoder : Decoder ResourceList :=
  record (typeFields "APIResourceList" ++ [
    textField "groupVersion" fun l v => { l with groupVersion := v },
    listField "resources" Resource.decoder fun l v => { l with resources := v }]) {}

namespace ResourceList

/-- The API group and the version of a list. The group is what stands in front of
the first slash, and empty when there is no slash. -/
def groupAndVersion (l : ResourceList) : String × String :=
  match l.groupVersion.toList.span (· != '/') with
  | (_, []) => ("", l.groupVersion)
  | (group, _ :: version) => (String.ofList group, String.ofList version)

/-- What a list says of one of its resources. Where it names a resource more than
once, its scope and what can be done with it are those of the first place. -/
def served (l : ResourceList) (r : Resource) : ServedKind :=
  let (group, version) := l.groupAndVersion
  let api : ApiResource := {
    group := r.group.getD group
    version := r.version.getD version
    apiVersion := apiVersionOf group version
    kind := r.kind
    plural := r.name }
  let first := (l.resources.find? (·.name == r.name)).getD r
  { kind := {
      id := ⟨api.group, api.version, api.plural⟩
      api
      namespaced := first.namespaced }
    watchable := first.verbs.contains "watch" }

/-- The kinds that a list names. Parts of other resources are passed over. -/
def kinds (l : ResourceList) : List ServedKind :=
  (l.resources.filter fun r => !r.name.toList.contains '/').map l.served

end ResourceList

structure VersionEntry where
  /-- The version. -/
  version : String := ""
  /-- What its resources are asked for by. -/
  target : String := "/apis/"
deriving DecidableEq, Repr

/-- A group with its versions. -/
structure Group where
  /-- Its name; empty for the core group. -/
  name : String := ""
  /-- Its versions in the order in which it lists them. -/
  versions : List VersionEntry := []
deriving DecidableEq, Repr

namespace Group

/-- A version of a group outside the core. -/
def version : Decoder VersionEntry :=
  record [
    textField "version" fun e v => { e with version := v },
    textField "groupVersion" fun e v => { e with target := "/apis/" ++ v }] {}

/-- A client range with the address that serves it. -/
def serverAddress : Decoder Unit :=
  record (["clientCIDR", "serverAddress"].map (.checked (optional text))) ()

/-- The member that says which addresses serve whom. -/
def addressField {σ : Type} : RecordField σ :=
  .checked (optional (list serverAddress)) "serverAddressByClientCIDRs"

/-- A group outside the core. -/
def decoder : Decoder Group :=
  record (typeFields "APIGroup" ++ [
    textField "name" fun g v => { g with name := v },
    listField "versions" version fun g v => { g with versions := v },
    .checked (optional version) "preferredVersion",
    addressField]) {}

/-- The groups outside the core. -/
def listDecoder : Decoder (List Group) :=
  record (typeFields "APIGroupList" ++ [listField "groups" decoder fun _ v => v]) []

def coreDecoder : Decoder Group :=
  record (typeFields "APIVersions" ++ [
    listField "versions" text fun g v =>
      { g with versions := v.map fun version => ⟨version, "/api/" ++ version⟩ },
    addressField]) {}

/-- Ask for the resources of every version of a group. A group without versions
is none. -/
def lists (site : Site) (g : Group) : Except WatchError (List (String × ResourceList)) :=
  if g.versions.isEmpty then .error .cluster
  else g.versions.mapM fun v => do
    return (v.version, ← site.ask ResourceList.decoder v.target)

/-- The kinds of a group, the most mature version first. Where two lists are of one
version, the first one is read in place of the second too. -/
def kinds (lists : List (String × ResourceList)) : List ServedKind :=
  let ordered := lists.mergeSort fun a b => (Maturity.ofName a.1).le (Maturity.ofName b.1)
  ordered.flatMap fun (version, _) =>
    ((ordered.lookup version).map ResourceList.kinds).getD []

end Group

/-- Groups by name with the kinds that were found. A group takes the place of
another one of its name. -/
def putGroup (groups : List (String × List ServedKind)) (name : String)
    (kinds : List ServedKind) : List (String × List ServedKind) :=
  groups.filter (·.1 != name) ++ [(name, kinds)]

def askGroup (site : Site) (groups : List (String × List ServedKind)) (g : Group) :
    Except WatchError (List (String × List ServedKind)) := do
  return putGroup groups g.name (Group.kinds (← g.lists site))

def run (site : Site) : Except WatchError Catalog := do
  let groups ← site.ask Group.listDecoder "/apis"
  let found ← groups.foldlM (askGroup site) []
  let core ← site.ask Group.coreDecoder "/api"
  let found ← askGroup site found core
  return .ofList (found.flatMap (·.2))

end Discovery

end ResourceWatch
