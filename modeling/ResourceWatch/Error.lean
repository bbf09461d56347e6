import ResourceWatch.Change.Notification
import ResourceWatch.Inputs.Validity
import ResourceWatch.Key
import ResourceWatch.Kind.Resolved
import ResourceWatch.Text.Duration
import ResourceWatch.Text.Quoted

/-!
# Errors

Every error is the cause it stands for; its wording is one function. Errors that
end the startup are reported to the caller. Errors about one notification or one
key stop nothing but that notification or key.
-/

namespace ResourceWatch

/-- Why a resource type has no kind to watch. -/
inductive ResolutionFault where
  | noMatch
  | notWatchable
deriving DecidableEq, Repr

def ResolutionFault.text : ResolutionFault → String
  | .noMatch => "no matches for resource"
  | .notWatchable => "resource does not support watch"

inductive OpeningFault where
  | injected
  | alreadyOpened
  | alreadyRegistered
deriving DecidableEq, Repr

def OpeningFault.text : OpeningFault → String
  | .injected => "injected failure"
  | .alreadyOpened => "stream already opened"
  | .alreadyRegistered => "a stream is already registered for this kind"

def KeyFault.text : KeyFault → String
  | .missingMarker => "missing object key prefix"
  | .trailingData => "trailing data after last field"
  | .missingSeparator => "missing field separator"
  | .invalidLength digits => s!"invalid field length {Text.quoted digits}"
  | .nonCanonicalLength digits => s!"non-canonical field length {Text.quoted digits}"
  | .lengthOutOfRange => "field length out of range"
  | .fieldTooShort => "field shorter than its length"
  | .fieldCount found => s!"expected {ObjectKey.fieldCount} fields, found {found}"
  | .emptyPart => "version, kind and name must be non-empty"

inductive WatchError where
  /-- The input set cannot be used. -/
  | invalidInput (cause : InputError)
  /-- The cluster interface failed. -/
  | cluster
  /-- No kind to watch is known for a resource type. -/
  | unknownKind (id : ResourceId) (fault : ResolutionFault)
  /-- A selector's kind could not be resolved. -/
  | kindResolution (owner : String) (selector : Selector) (cause : WatchError)
  /-- The stream of a kind could not be opened. -/
  | streamRegistration (gvk : Gvk) (fault : OpeningFault)
  /-- A running stream reported a passing error. -/
  | stream (message : String)
  /-- A stream ended before its first list was complete. -/
  | streamClosed (gvk : Gvk)
  /-- A notification refers to no object. -/
  | malformedEvent (fault : EventFault)
  /-- A text is no work-queue key. -/
  | malformedKey (key : String) (fault : KeyFault)
  /-- The first lists were not complete in time. -/
  | syncTimeout (limit : Duration)
  /-- Startup failed before the first lists were complete. -/
  | syncAborted
  /-- The surrounding work was cancelled. -/
  | cancelled
deriving DecidableEq, Repr

namespace WatchError

def message : WatchError → String
  | .invalidInput cause => s!"Invalid input resources: {cause.message}"
  | .cluster => "Kubernetes error"
  | .unknownKind id fault => s!"Unknown resource kind {id.text}: {fault.text}"
  | .kindResolution owner selector cause =>
    s!"Unable to find kind for {selector.text}, for {owner} owner: {cause.message}"
  | .streamRegistration gvk fault =>
    s!"Failed to register watch stream for {gvk.text}: {fault.text}"
  | .stream message => s!"Watch stream error: {message}"
  | .streamClosed gvk => s!"Watch stream for {gvk.text} closed before its cache synced"
  | .malformedEvent fault => s!"Malformed event: {fault.text}"
  | .malformedKey key fault => s!"Malformed key {Text.quoted key}: {fault.text}"
  | .syncTimeout limit => s!"Caches did not sync within {limit.text}"
  | .syncAborted => "Cache sync aborted before completion"
  | .cancelled => "Operation cancelled"

end WatchError

/-- Why a setting has no meaning. -/
inductive ConfigFault where
  /-- The value under `name` is no number that the setting can hold. -/
  | notANumber (name value : String)
  /-- The event channel would hold nothing. -/
  | zeroCapacity
  /-- The bounds of the retry delay, in seconds, are zero or cross. -/
  | backoffBounds (min max : Nat)
  | unknownResolver (word : String)
  | unknownFormat (word : String)
  | levelOutOfRange (level : Int)
  | unknownLevel (word : String)
  /-- A fault that a script asks for. -/
  | injected
deriving DecidableEq, Repr

def ConfigFault.text : ConfigFault → String
  | .notANumber name value => s!"{name} must be a non-negative integer, got `{value}`"
  | .zeroCapacity => "EVENT_CHANNEL_CAPACITY must be at least 1"
  | .backoffBounds min max =>
    "backoff bounds must satisfy 0 < BACKOFF_MIN_SECS <= BACKOFF_MAX_SECS, " ++
      s!"got {min}s and {max}s"
  | .unknownResolver word => s!"KIND_RESOLVER must be `discovery` or `static`, got `{word}`"
  | .unknownFormat word => s!"LOG_FORMAT must be `json` or `console`, got `{word}`"
  | .levelOutOfRange level => s!"numeric LOG_LEVEL must be between -9 and 5, got {level}"
  | .unknownLevel word => s!"unknown LOG_LEVEL `{word}`"
  | .injected => "injected"

/-- Which background task failed. -/
inductive TaskFault where
  /-- The source ended although nobody cancelled it. -/
  | sourceStopped
  /-- The worker ended although nobody cancelled it. -/
  | workerStopped
  /-- A failure that a script asks for. -/
  | injected
deriving DecidableEq, Repr

def TaskFault.text : TaskFault → String
  | .sourceStopped => "synchronized source stopped"
  | .workerStopped => "reconcile worker stopped"
  | .injected => "injected failure"

/-- Why the controller could not go on. -/
inductive ControllerError where
  /-- The cluster interface failed. -/
  | cluster
  /-- The watch engine failed. -/
  | watch (cause : WatchError)
  /-- The input set could not be read. -/
  | inputResources (cause : InputError)
  /-- A setting has no meaning. -/
  | invalidConfig (fault : ConfigFault)
  /-- A counter of this name is registered already. -/
  | metrics
  /-- A background task ended. -/
  | task (fault : TaskFault)
deriving DecidableEq, Repr

namespace ControllerError

def message : ControllerError → String
  | .cluster => "Kubernetes error"
  | .watch cause => s!"Watch error: {cause.message}"
  | .inputResources cause => s!"Input resources error: {cause.message}"
  | .invalidConfig fault => s!"Invalid configuration: {fault.text}"
  | .metrics => "Metrics error: Duplicate metrics collector registration attempted"
  | .task fault => s!"Task failed: {fault.text}"

end ControllerError

end ResourceWatch
