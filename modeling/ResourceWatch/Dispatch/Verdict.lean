import ResourceWatch.Filter
import ResourceWatch.Log

/-!
# Judging notifications

What becomes of a notification depends on the filters of its kind alone. The
first filter that takes the object decides for which owner the change is passed
on; the change is passed on once, whatever other filters take it too.
-/

namespace ResourceWatch

inductive DispatchOutcome where
  /-- The change was written to the event channel. -/
  | forwarded
  /-- No filter of the kind takes the object. -/
  | filtered
  /-- The kind has no filters. -/
  | noFilters
  /-- The notification refers to no object. -/
  | malformed
  /-- Nobody receives from the event channel any more. -/
  | closed
deriving DecidableEq, Repr, Inhabited

def DispatchOutcome.text : DispatchOutcome → String
  | .forwarded => "forwarded"
  | .filtered => "filtered"
  | .noFilters => "no_filters"
  | .malformed => "malformed"
  | .closed => "closed"

/-- What is to become of a notification. -/
inductive Verdict where
  /-- It is dropped, and this is how its handling ends. -/
  | drop (outcome : DispatchOutcome)
  /-- The change goes to the event channel. -/
  | forward (event : ChangeEvent)
deriving DecidableEq, Repr

namespace FilterTable

def judge (table : FilterTable) (gvk : Gvk) (n : Notification) : Verdict × List LogEvent :=
  match n.reference (some gvk) with
  | .error fault => (.drop .malformed, [.dropping n.action gvk fault])
  | .ok ref =>
    match table.filtersOf gvk with
    | [] => (.drop .noFilters, [.noFilters gvk ref.joinedName])
    | filters =>
      match filters.find? (·.takes ref) with
      | none => (.drop .filtered, [])
      | some f =>
        (.forward ⟨ref, f.owner, n.action⟩,
          [.forwarding n.action gvk ref.joinedName f.owner])

end FilterTable

end ResourceWatch
