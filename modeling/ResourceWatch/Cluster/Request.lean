import ResourceWatch.Kind.Resolved
import ResourceWatch.Target
import ResourceWatch.Text.Form

/-!
# Requests

Every request is for a path. A list and a watch name the collection of a kind by
its path, over all namespaces, and carry parameters. A list is asked for page by
page. A watch starts from the version of a list or of a change.
-/

namespace ResourceWatch

namespace ApiResource

/-- The path of the objects of a kind in all namespaces. The core group has a
place of its own. -/
def collectionPath (api : ApiResource) : String :=
  let root := if api.group.isEmpty then "/api/" else "/apis/"
  root ++ api.apiVersion ++ "/" ++ api.plural

end ApiResource

structure CollectionRequest where
  /-- The path of the kind. -/
  path : String
  /-- The parameters in the order of their names. -/
  parameters : List (String × String)
deriving DecidableEq, Repr

namespace CollectionRequest

/-- How many objects a page holds at most. -/
def pageSize : Nat := 500

/-- How many seconds a watch lasts at most. -/
def watchSeconds : Nat := 290

/-- The parameter that narrows a request down to objects with certain labels. -/
def labelParameter (labels : Option String) : List (String × String) :=
  (labels.map ("labelSelector", ·)).toList

/-- Ask for a page of the list: the first one, or the one that a token of the
page before stands for. -/
def list (api : ApiResource) (labels token : Option String) : CollectionRequest where
  path := api.collectionPath
  parameters :=
    (token.map ("continue", ·)).toList ++ labelParameter labels ++
      [("limit", toString pageSize)]

def watch (api : ApiResource) (labels : Option String) (version : String) :
    CollectionRequest where
  path := api.collectionPath
  parameters :=
    [("allowWatchBookmarks", "true")] ++ labelParameter labels ++
      [("resourceVersion", version), ("timeoutSeconds", toString watchSeconds),
        ("watch", "true")]

/-- A request as it is written: the path, and the parameters as a form, each with
its own mark in front. -/
def text (r : CollectionRequest) : String :=
  let parameters := r.parameters.map fun (name, value) =>
    "&" ++ Text.formEncoded name ++ "=" ++ Text.formEncoded value
  r.path ++ "?" ++ String.join parameters

/-- The target of a request. The name of a group, a version or a kind may be such
that there is none, or one that names something else. -/
def target? (r : CollectionRequest) : Option Target := Target.ofText? r.text

end CollectionRequest

end ResourceWatch
