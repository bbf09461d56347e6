import ResourceWatch.Dispatch.Verdict

/-!
# What happened

A world records what happens in it, in order. The log, the counters and what a
reconciler saw are views of that record.
-/

namespace ResourceWatch

/-- What a reconcile saw of its object. -/
inductive Observation where
  /-- The object is in the cache. -/
  | found (uid resourceVersion : Option String)
  /-- The object is not in the cache. -/
  | notFound
deriving DecidableEq, Repr, Inhabited

/-- What a reconcile came to. -/
abbrev ReconcileResult := Except ControllerError Observation

/-- Something that happened. -/
inductive Occurrence where
  /-- A line was written to the log. -/
  | logged (event : LogEvent)
  /-- A selector was found to share a watch. -/
  | shared
  /-- The handling of a notification ended. -/
  | handled (outcome : DispatchOutcome)
  /-- A stream reported a passing error. -/
  | streamFailed
  /-- A change entered the event channel. -/
  | entered (event : ChangeEvent)
  /-- The source handed a key over to the work queue. -/
  | keyed (key : String)
  /-- A reconcile of a key began. -/
  | began (key : String) (time : Nat)
  /-- A reconcile of a key that took time came to its end. -/
  | ended (key : String) (time : Nat)
  /-- A reconcile of a key had a result. -/
  | reconciled (key : String) (result : ReconcileResult) (time : Nat)
deriving Repr

/-- What happened, the first thing first. -/
abbrev History := List Occurrence

namespace History

def log (h : History) : List LogEvent :=
  h.filterMap fun | .logged e => some e | _ => none

/-- The keys that the source handed over. -/
def keyed (h : History) : List String :=
  h.filterMap fun | .keyed k => some k | _ => none

def entered (h : History) : List ChangeEvent :=
  h.filterMap fun | .entered e => some e | _ => none

/-- What a scripted reconciler notes: the beginning of every reconcile, and the
end of those that took time. -/
def reconcileNotes (h : History) : List String :=
  h.filterMap fun
    | .began k _ => some ("start " ++ k)
    | .ended k _ => some ("end " ++ k)
    | _ => none

/-- How many notifications ended with an outcome. -/
def outcomes (h : History) (o : DispatchOutcome) : Nat :=
  h.countP fun | .handled o' => o' == o | _ => false

/-- How many reconciles ended well, or did not. -/
def reconciles (h : History) (well : Bool) : Nat :=
  h.countP fun | .reconciled _ r _ => r.isOk == well | _ => false

/-- The counters that grew, under their names, by how much. -/
def counters (h : History) : List (String × Nat) :=
  let events := "input_watch_events_total="
  let reconciliations := "input_watch_reconciliations_total="
  let all : List (String × Nat) :=
    ([DispatchOutcome.forwarded, .filtered, .noFilters, .malformed, .closed].map fun o =>
      (events ++ o.text, h.outcomes o)) ++
    [("input_watch_stream_errors_total", h.countP fun | .streamFailed => true | _ => false),
     ("input_watch_duplicate_selectors_total", h.countP fun | .shared => true | _ => false),
     (reconciliations ++ "success", h.reconciles true),
     (reconciliations ++ "error", h.reconciles false),
     ("input_watch_reconciliation_duration_seconds_count",
       h.reconciles true + h.reconciles false)]
  all.filter (·.2 != 0)

end History

end ResourceWatch
