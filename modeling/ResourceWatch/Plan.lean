import ResourceWatch.Filter
import ResourceWatch.Kind.Table
import ResourceWatch.Log

/-!
# Plans

Selectors that resolve to one kind share one watch. A plan holds for each such
kind, in the order in which the kinds are first met, the filters of all selectors
that resolve to it. Planning stops at the first selector that does not resolve.
-/

namespace ResourceWatch

/-- One kind to watch, with all filters on it. -/
structure PlannedWatch where
  /-- The kind, as the first of its selectors resolved. -/
  kind : ResolvedKind
  /-- Its filters in the order of declaration. -/
  filters : List Filter
deriving DecidableEq, Repr

/-- The kinds to watch, each once. -/
structure WatchPlan where
  /-- The watches in the order in which their kinds are first met. -/
  watches : List PlannedWatch := []
deriving DecidableEq, Repr, Inhabited

namespace WatchPlan

def find? (p : WatchPlan) (gvk : Gvk) : Option PlannedWatch :=
  p.watches.find? (·.kind.gvk == gvk)

/-- The kinds that are watched, in plan order. -/
def kinds (p : WatchPlan) : List Gvk := p.watches.map (·.kind.gvk)

def filterTable (p : WatchPlan) : FilterTable :=
  ⟨p.watches.map fun w => (w.kind.gvk, w.filters)⟩

/-- The filters of a kind; none for a kind that is not watched. -/
def filtersOf (p : WatchPlan) (gvk : Gvk) : List Filter :=
  ((p.find? gvk).map (·.filters)).getD []

/-- How many selectors share a watch that an earlier one asked for. -/
def shared (p : WatchPlan) : Nat := (p.watches.flatMap (·.filters)).length - p.watches.length

/-- Texts without their repetitions, each at its first place. -/
def distinct (xs : List String) : List String :=
  xs.foldl (fun seen x => if seen.contains x then seen else seen ++ [x]) []

/-- Every owner with a selector that takes the object, each once, in the order
of declaration. -/
def ownersOf (p : WatchPlan) (gvk : Gvk) (ns name : String) : List String :=
  distinct (((p.filtersOf gvk).filter (·.selector.selects ns name)).map (·.owner))

/-- The plan with one more filter: on the watch of its kind if there is one, and
else on a new watch at the end. -/
def add (p : WatchPlan) (kind : ResolvedKind) (f : Filter) : WatchPlan :=
  if (p.find? kind.gvk).isSome then
    ⟨p.watches.map fun w =>
      if w.kind.gvk == kind.gvk then { w with filters := w.filters ++ [f] } else w⟩
  else ⟨p.watches ++ [⟨kind, [f]⟩]⟩

end WatchPlan

/-- What planning came to. -/
structure Planning where
  /-- The plan, or why there is none. -/
  result : Except WatchError WatchPlan
  /-- What planning told of its work. -/
  log : List LogEvent

namespace Planning

/-- Plan the selectors that are left, on top of what is planned already. -/
def extend (resolve : Resolver) (plan : WatchPlan) (log : List LogEvent) :
    List (String × Selector) → Planning
  | [] => ⟨.ok plan, log⟩
  | (owner, selector) :: rest =>
    match resolve selector.id with
    | .error e => ⟨.error (.kindResolution owner selector e), log⟩
    | .ok kind =>
      let event : LogEvent :=
        if (plan.find? kind.gvk).isSome then .sharing kind.gvk selector
        else .planning kind.gvk selector
      extend resolve (plan.add kind ⟨owner, selector⟩) (log ++ [event]) rest

def of (resolve : Resolver) (set : InputSet) : Planning :=
  let planning := extend resolve {} [] set.entries
  match planning.result with
  | .error _ => planning
  | .ok plan =>
    { planning with log := planning.log ++ [.planned plan.watches.length set.size] }

/-- How many selectors share a watch that an earlier one asked for. -/
def duplicates (p : Planning) : Nat :=
  p.log.countP fun e => e matches .sharing ..

end Planning

def WatchPlan.of (resolve : Resolver) (set : InputSet) : Except WatchError WatchPlan :=
  (Planning.of resolve set).result

end ResourceWatch
