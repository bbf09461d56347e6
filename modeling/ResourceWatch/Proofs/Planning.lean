import Mathlib.Data.List.Basic
import ResourceWatch.Plan

/-!
# What a plan makes of an input set

Planning groups the selectors of an input set by the kind that they stand for. The
filters that a plan has on a kind are the selectors that stand for the kind, owners in
their order and the selectors of an owner in theirs. The owners that a plan names for an
object are those who declared a selector that takes it, each once and in the same order.
-/

namespace ResourceWatch

def Selector.standsFor (resolve : Resolver) (gvk : Gvk) (s : Selector) : Bool :=
  match resolve s.id with
  | .ok kind => kind.gvk == gvk
  | .error _ => false

namespace InputSet

/-- The selectors of an input set that stand for a kind, with their owners: owners in
order, and the selectors of an owner in the order of their declaration. -/
def entriesOn (set : InputSet) (resolve : Resolver) (gvk : Gvk) : List (String × Selector) :=
  set.entries.filter fun entry => entry.2.standsFor resolve gvk

/-- The owners in order who declared a selector that stands for a kind and selects an
object. -/
def ownersOn (set : InputSet) (resolve : Resolver) (gvk : Gvk) (ns name : String) :
    List String :=
  (set.declarations.filter fun d =>
    d.selectors.any fun s => s.standsFor resolve gvk && s.selects ns name).map (·.owner)

theorem nodup_ownersOn (set : InputSet) (resolve : Resolver) (gvk : Gvk) (ns name : String) :
    (set.ownersOn resolve gvk ns name).Nodup := by
  have ascending : (set.ownersOn resolve gvk ns name).Pairwise (· < ·) :=
    List.pairwise_map.2 (set.ordered.sublist List.filter_sublist)
  refine ascending.imp ?_
  rintro a b less rfl
  exact String.lt_irrefl a less

end InputSet

namespace WatchPlan

variable {plan : WatchPlan} {gvk : Gvk}

theorem filtersOf_filterTable (plan : WatchPlan) (gvk : Gvk) :
    plan.filterTable.filtersOf gvk = plan.filtersOf gvk := by
  rw [FilterTable.filtersOf, filterTable, List.find?_map, Option.map_map]
  rfl

/-- One more filter comes after the others of its kind, and leaves other kinds as they
are. -/
theorem filtersOf_add (plan : WatchPlan) (kind : ResolvedKind) (f : Filter) (gvk : Gvk) :
    (plan.add kind f).filtersOf gvk =
      plan.filtersOf gvk ++ if kind.gvk = gvk then [f] else [] := by
  rw [add]
  split
  next there =>
    -- the watch of the kind is there, and gets the filter where it stands
    have same : ((fun w : PlannedWatch => w.kind.gvk == gvk) ∘ fun w =>
        if w.kind.gvk == kind.gvk then { w with filters := w.filters ++ [f] } else w) =
        fun w => w.kind.gvk == gvk := by
      funext w
      dsimp only [Function.comp]
      split <;> rfl
    simp only [filtersOf, find?, List.find?_map, same]
    cases found : plan.watches.find? (·.kind.gvk == gvk) with
    | none =>
        have other : kind.gvk ≠ gvk := by
          rintro rfl
          simp [find?, found] at there
        simp [other]
    | some w =>
        have own : w.kind.gvk = gvk := by simpa using List.find?_some found
        by_cases here : kind.gvk = gvk
        · simp [own, here]
        · simp [own, here, Ne.symm here]
  next missing =>
    have unmet : plan.watches.find? (·.kind.gvk == kind.gvk) = none := by
      simpa [find?] using missing
    simp only [filtersOf, find?, List.find?_append]
    by_cases here : kind.gvk = gvk
    · subst here
      simp [unmet]
    · simp [here]

/-- Planning puts the selectors that are left, of those that stand for a kind, after the
filters that the kind has already. -/
theorem filtersOf_extend {resolve : Resolver} {p : WatchPlan} {log : List LogEvent}
    {entries : List (String × Selector)}
    (planned : (Planning.extend resolve p log entries).result = .ok plan) :
    plan.filtersOf gvk = p.filtersOf gvk ++
      (entries.filter fun entry => entry.2.standsFor resolve gvk).map fun e => ⟨e.1, e.2⟩ := by
  induction entries generalizing p log with
  | nil => cases planned; simp
  | cons entry entries ih =>
      obtain ⟨owner, selector⟩ := entry
      rw [Planning.extend] at planned
      split at planned
      next => cases planned
      next kind resolved =>
        rw [ih planned, filtersOf_add]
        by_cases here : kind.gvk = gvk <;> simp [Selector.standsFor, resolved, here]

/-- The filters that a plan has on a kind are the selectors that stand for the kind. -/
theorem filtersOf_of {resolve : Resolver} {set : InputSet}
    (planned : WatchPlan.of resolve set = .ok plan) :
    plan.filtersOf gvk = (set.entriesOn resolve gvk).map fun e => ⟨e.1, e.2⟩ := by
  have extended : (Planning.extend resolve {} [] set.entries).result = .ok plan := by
    simp only [WatchPlan.of, Planning.of] at planned
    split at planned <;> simp_all
  rw [filtersOf_extend extended]
  rfl

/-- Texts that are not among others yet, without their repetitions, after the others. -/
def distinctFrom (seen xs : List String) : List String :=
  xs.foldl (fun seen x => if seen.contains x then seen else seen ++ [x]) seen

theorem distinctFrom_append (seen xs ys : List String) :
    distinctFrom seen (xs ++ ys) = distinctFrom (distinctFrom seen xs) ys :=
  List.foldl_append

/-- A text that is there already is not added again. -/
theorem distinctFrom_seen {seen : List String} {x : String} (there : x ∈ seen)
    {α : Type} (l : List α) : distinctFrom seen (l.map fun _ => x) = seen := by
  induction l with
  | nil => rfl
  | cons a l ih => simpa [distinctFrom, there] using ih

/-- A new text is added once, however often it comes. -/
theorem distinctFrom_new {seen : List String} {x : String} (new : x ∉ seen)
    {α : Type} (l : List α) :
    distinctFrom seen (l.map fun _ => x) = seen ++ if l.isEmpty then [] else [x] := by
  cases l with
  | nil => simp [distinctFrom]
  | cons a l =>
      have rest : distinctFrom (seen ++ [x]) (l.map fun _ => x) = seen ++ [x] :=
        distinctFrom_seen (by simp) l
      simpa [distinctFrom, new] using rest

/-- If every owner comes for all of its selectors at once, the owners without their
repetitions are those that have a selector. -/
theorem distinctFrom_owners {seen : List String} {ds : List Declaration}
    (ordered : ds.Pairwise fun a b => a.owner < b.owner) (new : ∀ d ∈ ds, d.owner ∉ seen)
    (chosen : Declaration → List Selector) :
    distinctFrom seen (ds.flatMap fun d => (chosen d).map fun _ => d.owner) =
      seen ++ (ds.filter fun d => !(chosen d).isEmpty).map (·.owner) := by
  induction ds generalizing seen with
  | nil => simp [distinctFrom]
  | cons d ds ih =>
      obtain ⟨first, ordered⟩ := List.pairwise_cons.1 ordered
      rw [List.flatMap_cons, distinctFrom_append, distinctFrom_new (new d (by simp)), ih ordered]
      · cases none : (chosen d).isEmpty <;> simp [none]
      · intro e there
        have unseen := new e (by simp [there])
        have other : e.owner ≠ d.owner := fun same =>
          absurd (first e there) (by simp [same])
        split <;> simp [unseen, other]

/-- The owners that a plan names for an object are those who declared a selector that
takes it. -/
theorem ownersOf_of {resolve : Resolver} {set : InputSet}
    (planned : WatchPlan.of resolve set = .ok plan) (ns name : String) :
    plan.ownersOf gvk ns name = set.ownersOn resolve gvk ns name := by
  have owners : ((plan.filtersOf gvk).filter (·.selector.selects ns name)).map (·.owner) =
      set.declarations.flatMap fun d => (d.selectors.filter fun s =>
        s.standsFor resolve gvk && s.selects ns name).map fun _ => d.owner := by
    rw [filtersOf_of planned, InputSet.entriesOn, InputSet.entries]
    simp only [List.filter_flatMap, List.filter_map, List.map_flatMap, List.map_map,
      List.filter_filter, Function.comp_def]
    congr
    funext d
    simp [Bool.and_comm]
  show distinctFrom [] _ = _
  rw [owners, distinctFrom_owners set.ordered (by simp), InputSet.ownersOn, List.nil_append]
  congr
  funext d
  rw [Bool.eq_iff_iff]
  simp

theorem head?_distinctFrom (seen xs : List String) :
    (distinctFrom seen xs).head? = (seen.head? <|> xs.head?) := by
  induction xs generalizing seen with
  | nil => cases seen <;> rfl
  | cons x xs ih =>
      have step : distinctFrom seen (x :: xs) =
          distinctFrom (if seen.contains x then seen else seen ++ [x]) xs := rfl
      rw [step, ih]
      cases seen with
      | nil => rfl
      | cons y seen => split <;> simp

/-- The first owner that a plan names for an object is the owner of the first filter
that takes it. -/
theorem head?_ownersOf (plan : WatchPlan) (gvk : Gvk) (ns name : String) :
    (plan.ownersOf gvk ns name).head? =
      ((plan.filtersOf gvk).find? (·.selector.selects ns name)).map (·.owner) := by
  show (distinctFrom [] _).head? = _
  rw [head?_distinctFrom, List.head?_map, List.head?_filter]
  rfl

end WatchPlan

end ResourceWatch
