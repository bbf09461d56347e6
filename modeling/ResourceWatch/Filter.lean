import ResourceWatch.Change.Reference
import ResourceWatch.Selector

/-!
# Filters

A filter is a selector with the owner that declared it. All filters of one kind
share one watch; a change is passed on for the first filter that takes it.
-/

namespace ResourceWatch

/-- A selector on behalf of an owner. -/
structure Filter where
  /-- Who declared the selector. -/
  owner : String
  /-- What is selected. -/
  selector : Selector
deriving DecidableEq, Repr, Inhabited

def Filter.takes (f : Filter) (r : Reference) : Bool := f.selector.selects r.ns r.name

/-- The filters of every watched kind, each kind once. -/
structure FilterTable where
  /-- Kinds with their filters. -/
  rows : List (Gvk × List Filter) := []
deriving DecidableEq, Repr, Inhabited

namespace FilterTable

/-- The filters of a kind in the order of their declaration; none for a kind
that is not watched. -/
def filtersOf (t : FilterTable) (gvk : Gvk) : List Filter :=
  ((t.rows.find? (·.1 == gvk)).map (·.2)).getD []

end FilterTable

end ResourceWatch
