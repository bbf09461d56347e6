import ResourceWatch.Error

/-!
# The log

What the engine and the controller tell of their work. Every line is the event
it tells of; its level and its wording are functions of the event.
-/

namespace ResourceWatch

inductive LogLevel where
  | trace
  | debug
  | info
  | warn
  | error
deriving DecidableEq, Repr, Inhabited

/-- The word for a level. -/
def LogLevel.text : LogLevel → String
  | .trace => "TRACE"
  | .debug => "DEBUG"
  | .info => "INFO"
  | .warn => "WARN"
  | .error => "ERROR"

/-- How much a level matters, as a number. -/
def LogLevel.severity : LogLevel → Nat
  | .trace => 0
  | .debug => 1
  | .info => 2
  | .warn => 3
  | .error => 4

inductive LogEvent where
  /-- A kind is to be watched because of a selector. -/
  | planning (gvk : Gvk) (selector : Selector)
  /-- A selector shares the watch of a kind that is watched already. -/
  | sharing (gvk : Gvk) (selector : Selector)
  /-- Every selector is planned. -/
  | planned (watches selectors : Nat)
  /-- A notification refers to no object. -/
  | dropping (action : Action) (gvk : Gvk) (fault : EventFault)
  /-- A change to an object whose kind nobody selects. -/
  | noFilters (gvk : Gvk) (object : String)
  /-- A change is passed on. -/
  | forwarding (action : Action) (gvk : Gvk) (object owner : String)
  /-- The source has begun its work. -/
  | sourceStarting
  /-- The source was cancelled. -/
  | sourceCancelled
  /-- No change can come any more. -/
  | sourceClosed
  /-- A key goes to the work queue. -/
  | queueing (key : ObjectKey) (owner : String)
  /-- A change to an object of unknown kind. -/
  | kindUnknown (object owner : String)
  /-- A key is held back while it is in flight. -/
  | deferring (key : String)
  /-- A text that is no key came to the reconciler. -/
  | refusing (key : String) (fault : KeyFault)
  /-- The object of a key is not in the cache. -/
  | absent (key : ObjectKey) (owners : List String)
  /-- The object of a key is in the cache. -/
  | present (key : ObjectKey) (uid resourceVersion : Option String) (owners : List String)
  /-- A key is given up. -/
  | givingUp (key : String) (fault : WatchError)
  /-- A key is to be tried again. -/
  | retrying (key : String) (attempt : Nat) (error : ControllerError) (delay : Duration)
  /-- The worker has ended. -/
  | workerStopped
  /-- The controller begins. -/
  | controllerStarting
  /-- The input set comes from a file. -/
  | loadingInputs (path : String)
  /-- The input set is the one built in. -/
  | builtinInputs
  /-- An owner declares something. -/
  | declaredOwner (owner : String)
  /-- A selector of the owner named before. -/
  | declaredSelector (selector : Selector)
deriving DecidableEq, Repr

namespace LogEvent

def level : LogEvent → LogLevel
  | planning .. | forwarding .. | queueing .. | deferring .. => .debug
  | noFilters .. | retrying .. => .warn
  | dropping .. | kindUnknown .. | refusing .. | givingUp .. => .error
  | sharing .. | planned .. | sourceStarting | sourceCancelled | sourceClosed | absent ..
  | present .. | workerStopped | controllerStarting | loadingInputs .. | builtinInputs
  | declaredOwner .. | declaredSelector .. => .info

def message : LogEvent → String
  | planning gvk selector => s!"Planning watch for {gvk.text} ({selector.text})"
  | sharing gvk selector =>
    s!"gvk {gvk.text} already registered, reusing its watch for {selector.text}"
  | planned watches selectors => s!"Planned {watches} watch streams for {selectors} selectors"
  | dropping action gvk fault =>
    let error := WatchError.malformedEvent fault
    s!"Dropping {action.verb} notification for {gvk.text}: {error.message}"
  | noFilters gvk object => s!"No filters registered for {gvk.text}, dropping {object}"
  | forwarding action gvk object owner =>
    s!"Forwarding {action.verb} {gvk.text} {object} for owner {owner}"
  | sourceStarting => "Starting synchronized source"
  | sourceCancelled => "Synchronized source cancelled"
  | sourceClosed => "Event channel closed, stopping synchronized source"
  | queueing key owner => s!"Queueing {key.text} for owner {owner}"
  | kindUnknown object owner =>
    s!"Dropping change to {object} for owner {owner}: object kind is unknown"
  | deferring key => s!"{key} is in flight, deferring"
  | refusing key fault =>
    let error := WatchError.malformedKey key fault
    s!"Refusing to reconcile undecodable key {key}: {error.message}"
  | absent key owners => s!"resource not found: {key.text} (owners: {Text.quotedList owners})"
  | present key uid resourceVersion owners =>
    let unset := "<none>"
    s!"resource from cache: {key.text} uid={uid.getD unset} " ++
      s!"resourceVersion={resourceVersion.getD unset} (owners: {Text.quotedList owners})"
  | givingUp key fault => s!"Dropping key {key}: {fault.message}"
  | retrying key attempt error delay =>
    s!"Reconcile of {key} failed (attempt {attempt}): {error.message}, retrying in {delay.text}"
  | workerStopped => "Reconcile worker stopped"
  | controllerStarting => "Initializing Input Watch Controller"
  | loadingInputs path => s!"Loading input resources from {path}"
  | builtinInputs => "No INPUT_RESOURCES_FILE set, using built-in input resources"
  | declaredOwner owner => s!"  Owner {owner}:"
  | declaredSelector selector => s!"    {selector.text}"

/-- A whole line: level and wording. -/
def line (e : LogEvent) : String := e.level.text ++ " " ++ e.message

end LogEvent

end ResourceWatch
