import ResourceWatch.Cluster.Message
import ResourceWatch.Cluster.Page
import ResourceWatch.Cluster.Reply
import ResourceWatch.Cluster.Request
import ResourceWatch.Tracker

/-!
# Watchers

A watcher follows the objects of one kind. It lists them page by page and then
watches what changes from the version of the list on. When a watch ends it asks
for another one, from the last version that it was told. What it cannot get over
makes it list everything again.

Every request waits for its reply before anything else is done, so what a watcher
does is a function of the replies alone. A request that has no target is given up
at once, and tried again.
-/

namespace ResourceWatch

/-- What a watcher meets with and gets over. -/
inductive WatchFault where
  /-- A page could not be had. -/
  | listFailed
  /-- A watch could not be asked for. -/
  | notStarted
  /-- Something came without the version that the next request needs. -/
  | noVersion
  /-- The watch reported an error. -/
  | reported
  /-- A line of a watch is no message. -/
  | unreadable
deriving DecidableEq, Repr

def WatchFault.text : WatchFault → String
  | .listFailed => "failed to perform initial object list"
  | .notStarted => "failed to start watching object"
  | .noVersion => "no metadata.resourceVersion in watch result (does resource support watch?)"
  | .reported => "error returned by apiserver during watch"
  | .unreadable => "watch stream failed"

abbrev WatchReport := Except WatchFault WatchEvent

/-- What a watcher does. -/
inductive WatchStep where
  /-- It sends a request, and is answered. -/
  | asked (target : Target)
  /-- It tells something. -/
  | told (report : WatchReport)
deriving Repr

/-- What a watcher asks for next. -/
inductive Watcher where
  /-- A page of the list: the first one, or the one behind a token. -/
  | listing (token : Option String)
  /-- What changes from a version on. -/
  | watching (version : String)
deriving DecidableEq, Repr

namespace Watcher

/-- The number of an error that says that a version is too old to watch from. -/
def goneCode : Nat := 410

def request (api : ApiResource) (labels : Option String) : Watcher → CollectionRequest
  | .listing token => .list api labels token
  | .watching version => .watch api labels version

def restart (faults : List WatchFault) : List WatchReport × Watcher :=
  (faults.map .error ++ [.ok .listBegin], .listing none)

def takePage : Option Page → List WatchReport × Watcher
  | none => restart [.listFailed]
  | some page =>
    let named := page.objects.map fun o => Except.ok (WatchEvent.listed o)
    match page.token, page.version with
    | some token, _ => (named, .listing (some token))
    | none, some version => (named ++ [.ok .listEnd], .watching version)
    | none, none => restart [.noVersion]

/-- A change has come. It has to carry the version from which to go on. -/
def takeChange (o : Object) (event : WatchEvent) : List WatchReport × Watcher :=
  match o.metadata.resourceVersion with
  | none | some "" => restart [.noVersion]
  | some version => ([.ok event], .watching version)

/-- A line of the watch from a version has come. A line that was cut off is
passed over. -/
def takeLine (version line : String) : List WatchReport × Watcher :=
  match WatchMessage.ofLine line with
  | .error .ended => ([], .watching version)
  | .error .malformed => ([.error .unreadable], .watching version)
  | .ok (.applied o) => takeChange o (.applied o)
  | .ok (.deleted o) => takeChange o (.deleted o)
  | .ok (.bookmark reached) => ([], .watching reached)
  | .ok (.failure code) =>
    if code = goneCode then restart [.reported] else ([.error .reported], .watching version)

/-- The lines of a watch have come. After a restart the rest of them is of no
use. -/
def takeLines : Watcher → List String → List WatchReport × Watcher
  | .watching version, line :: rest =>
    let (told, w) := takeLine version line
    let (later, w) := takeLines w rest
    (told ++ later, w)
  | w, _ => ([], w)

/-- The reply to the request of a watcher has come. A list is read as a whole; a
watch is read line by line, whatever its status. A reply that does not end keeps
the watcher waiting, unless it lists everything again before that. -/
def take : Watcher → Reply → List WatchReport × Option Watcher
  | .listing _, reply =>
    if reply.complete then (takePage (reply.read? Page.decoder)).map id some
    else ([], none)
  | .watching version, reply =>
    match takeLines (.watching version) reply.lines with
    | (told, .listing token) => (told, some (.listing token))
    | (told, w) => (told, if reply.complete then some w else none)

/-- The next request has no target. -/
def unsent : Watcher → List WatchReport × Watcher
  | .listing _ => restart [.listFailed]
  | .watching version => ([.error .notStarted], .watching version)

/-- Go on with the replies that will come, for at most so many requests. A request
that will not be answered ends it. -/
def follow (ask : Watcher → Option Target) :
    (requests : Nat) → Watcher → List Reply → List WatchStep
  | 0, _, _ => []
  | requests + 1, w, replies =>
    match ask w, replies with
    | none, replies =>
      let (told, w) := w.unsent
      told.map .told ++ follow ask requests w replies
    | some _, [] => []
    | some target, reply :: rest =>
      let (told, next) := w.take reply
      .asked target :: (told.map .told ++ next.elim [] fun w => follow ask requests w rest)

/-- Watch a kind from the beginning, with the replies that will come. At most
`unsent` requests that have no target are tried. -/
def run (api : ApiResource) (labels : Option String) (replies : List Reply) (unsent : Nat) :
    List WatchStep :=
  let ask (w : Watcher) := (request api labels w).target?
  .told (.ok .listBegin) :: follow ask (replies.length + unsent) (.listing none) replies

end Watcher

end ResourceWatch
