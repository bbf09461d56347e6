import ResourceWatch.Error

/-!
# Collectors

Every counter and gauge is a collector with a name. A registry holds the
collectors that are shown to whoever asks for them. It takes no two collectors
of one name, and what it has taken before a collision it keeps.
-/

namespace ResourceWatch

def engineCollectors : List String :=
  ["input_watch_events_total", "input_watch_stream_errors_total",
    "input_watch_registered_streams", "input_watch_duplicate_selectors_total",
    "input_watch_caches_synced"]

/-- All collectors of the controller, those of the engine among them. -/
def controllerCollectors : List String :=
  ["input_watch_reconciliations_total", "input_watch_reconciliation_duration_seconds",
    "input_watch_queue_depth"] ++ engineCollectors

structure Registry where
  /-- The names in the order of registration. -/
  names : List String := []
deriving DecidableEq, Repr, Inhabited

namespace Registry

/-- Take collectors, up to the first one whose name is taken. -/
def register (r : Registry) : List String → Registry × Except ControllerError Unit
  | [] => (r, .ok ())
  | name :: rest =>
    if r.names.contains name then (r, .error .metrics)
    else register ⟨r.names ++ [name]⟩ rest

end Registry

end ResourceWatch
