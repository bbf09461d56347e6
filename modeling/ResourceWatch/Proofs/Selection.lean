import ResourceWatch.Proofs.Dispatch
import ResourceWatch.Proofs.Judging
import ResourceWatch.Proofs.Planning

/-!
# What is declared is what is passed on

A dispatcher that is made from the plan of an input set passes on exactly the changes of
objects that some selector of the set takes, each once and for the owner of the first such
selector. The plan names all owners with such a selector, the same one first. The two
go different ways, one through a table of filters and one through the plan, and come to
the same result whatever the selectors are and however they overlap.
-/

namespace ResourceWatch

namespace InputSet

def takes (resolve : Resolver) (gvk : Gvk) (ns name : String) (entry : String × Selector) :
    Bool :=
  entry.2.standsFor resolve gvk && entry.2.selects ns name

/-- The change that a notification amounts to for an input set: that of the named object
which it carries, on behalf of the first owner with a selector that takes the object. -/
def change? (set : InputSet) (resolve : Resolver) (gvk : Gvk) (n : Notification) :
    Option ChangeEvent := do
  let o ← n.object?
  let name ← o.name?
  let entry ← set.entries.find? (takes resolve gvk o.nsText name)
  return ⟨⟨some gvk, o.nsText, name, o.metadata.uid, o.metadata.resourceVersion⟩, entry.1,
    n.action⟩

/-- What an input set, its plan and a dispatcher that is made from the plan say of a
notification: how its handling ends, and what it has put on the channel. -/
structure Handles (set : InputSet) (resolve : Resolver) (plan : WatchPlan) (gvk : Gvk)
    (n : Notification) (outcome : DispatchOutcome) (put : List ChangeEvent) : Prop where
  /-- The notification is malformed if it carries no object with a name. -/
  malformed : outcome = .malformed ↔ ¬ ∃ o name, n.object? = some o ∧ o.name? = some name
  /-- Otherwise there are no filters if no selector stands for the kind. -/
  noFilters : ∀ o name, n.object? = some o → o.name? = some name →
    (outcome = .noFilters ↔ ∀ entry ∈ set.entries, entry.2.standsFor resolve gvk = false)
  /-- It is filtered if some selectors do, and none of them selects the object. -/
  filtered : ∀ o name, n.object? = some o → o.name? = some name →
    (outcome = .filtered ↔ (∃ entry ∈ set.entries, entry.2.standsFor resolve gvk = true) ∧
      ∀ entry ∈ set.entries, entry.2.standsFor resolve gvk = true →
        entry.2.selects o.nsText name = false)
  /-- It is passed on if one of them selects the object. -/
  forwarded : ∀ o name, n.object? = some o → o.name? = some name →
    (outcome = .forwarded ↔ ∃ entry ∈ set.entries, takes resolve gvk o.nsText name entry = true)
  /-- Then one change is on the channel, and otherwise none. -/
  change : put = (set.change? resolve gvk n).toList
  /-- The plan names an owner of the object if and only if it is passed on. -/
  owned : ∀ o name, n.object? = some o → o.name? = some name →
    (plan.ownersOf gvk o.nsText name ≠ [] ↔ outcome = .forwarded)
  /-- The first of them is the owner of the change. -/
  owner : ∀ e ∈ put, (plan.ownersOf gvk e.reference.ns e.reference.name).head? = some e.owner

end InputSet

variable {resolve : Resolver} {set : InputSet} {plan : WatchPlan} {gvk : Gvk}
  {n : Notification} {o : Object} {ns name : String}

namespace WatchPlan

/-- The first filter of a plan that selects an object comes from the first entry of the input
set that takes it. -/
theorem find?_filtersOf (planned : WatchPlan.of resolve set = .ok plan) (ns name : String) :
    (plan.filtersOf gvk).find? (·.selector.selects ns name) =
      (set.entries.find? (InputSet.takes resolve gvk ns name)).map fun e => ⟨e.1, e.2⟩ := by
  rw [filtersOf_of planned, InputSet.entriesOn, List.find?_map, List.find?_filter]
  congr
  funext entry
  simp [InputSet.takes]

theorem filtersOf_eq_nil_iff (planned : WatchPlan.of resolve set = .ok plan) :
    plan.filtersOf gvk = [] ↔ ∀ entry ∈ set.entries, entry.2.standsFor resolve gvk = false := by
  rw [filtersOf_of planned, List.map_eq_nil_iff, InputSet.entriesOn, List.filter_eq_nil_iff]
  simp

end WatchPlan

namespace InputSet

theorem change?_of_unnamed (unnamed : ∀ o, n.object? = some o → o.name? = none) :
    set.change? resolve gvk n = none := by
  cases carries : n.object? with
  | none => simp [change?, carries]
  | some o => simp [change?, carries, unnamed o carries]

theorem change?_of_named (carries : n.object? = some o) (named : o.name? = some name) :
    set.change? resolve gvk n =
      (set.entries.find? (takes resolve gvk o.nsText name)).map fun entry =>
        ⟨⟨some gvk, o.nsText, name, o.metadata.uid, o.metadata.resourceVersion⟩, entry.1,
          n.action⟩ := by
  simp only [change?, carries, named, Option.bind_eq_bind, Option.bind_some, Option.pure_def]
  cases set.entries.find? (takes resolve gvk o.nsText name) <;> rfl

/-- Nothing is passed on if no selector stands for the kind. -/
theorem change?_of_unmet (unmet : ∀ entry ∈ set.entries, entry.2.standsFor resolve gvk = false) :
    set.change? resolve gvk n = none := by
  have none (ns name : String) : set.entries.find? (takes resolve gvk ns name) = none :=
    List.find?_eq_none.2 fun entry there => by simp [takes, unmet entry there]
  simp [change?, none]

/-- The verdict of a dispatcher that is made from a plan. -/
theorem judge_of_planned (planned : WatchPlan.of resolve set = .ok plan)
    (carries : n.object? = some o) (named : o.name? = some name) :
    (plan.filterTable.judge gvk n).1 =
      if ∀ entry ∈ set.entries, entry.2.standsFor resolve gvk = false then .drop .noFilters
      else match set.change? resolve gvk n with
        | none => .drop .filtered
        | some e => .forward e := by
  rw [FilterTable.judge_of_named carries named, plan.filtersOf_filterTable,
    WatchPlan.find?_filtersOf planned, change?_of_named carries named]
  simp only [WatchPlan.filtersOf_eq_nil_iff planned]
  cases set.entries.find? (takes resolve gvk o.nsText name) <;> rfl

/-- The first owner that a plan names for an object is that of the first entry of the
input set that takes it. -/
theorem head?_ownersOf (planned : WatchPlan.of resolve set = .ok plan) (ns name : String) :
    (plan.ownersOf gvk ns name).head? =
      (set.entries.find? (takes resolve gvk ns name)).map (·.1) := by
  rw [WatchPlan.head?_ownersOf, WatchPlan.find?_filtersOf planned, Option.map_map]
  rfl

/-- What is said of a notification that carries no object with a name. -/
theorem handles_unnamed (unnamed : ∀ o, n.object? = some o → o.name? = none) :
    set.Handles resolve plan gvk n .malformed [] := by
  have absurd {o : Object} {name : String} (carries : n.object? = some o)
      (named : o.name? = some name) {p : Prop} : p := by
    rw [unnamed o carries] at named
    cases named
  refine ⟨?_, ?_, ?_, ?_, ?_, ?_, by simp⟩
  · exact iff_of_true rfl fun ⟨o, name, carries, named⟩ => absurd carries named
  · exact fun o name carries named => absurd carries named
  · exact fun o name carries named => absurd carries named
  · exact fun o name carries named => absurd carries named
  · rw [change?_of_unnamed unnamed]
    rfl
  · exact fun o name carries named => absurd carries named

/-- What is said of a notification that carries an object with a name. -/
theorem handles_named (planned : WatchPlan.of resolve set = .ok plan)
    (carries : n.object? = some o) (named : o.name? = some name) (outcome : DispatchOutcome)
    (outcome_eq : outcome =
      if ∀ entry ∈ set.entries, entry.2.standsFor resolve gvk = false then .noFilters
      else if (set.change? resolve gvk n).isSome then .forwarded else .filtered) :
    set.Handles resolve plan gvk n outcome (set.change? resolve gvk n).toList := by
  have only {o' : Object} {name' : String} (carries' : n.object? = some o')
      (named' : o'.name? = some name') : o' = o ∧ name' = name := by
    obtain rfl := Option.some.inj (carries'.symm.trans carries)
    exact ⟨rfl, Option.some.inj (named'.symm.trans named)⟩
  have found : (set.entries.find? (takes resolve gvk o.nsText name)).isSome = true ↔
      ∃ entry ∈ set.entries, takes resolve gvk o.nsText name entry = true := List.find?_isSome
  have forwarded : outcome = .forwarded ↔
      ∃ entry ∈ set.entries, takes resolve gvk o.nsText name entry = true := by
    rw [outcome_eq, change?_of_named carries named, Option.isSome_map, ← found]
    split
    next none =>
      rw [found]
      refine iff_of_false nofun ?_
      rintro ⟨entry, there, taken⟩
      simp [takes, none entry there] at taken
    next => split <;> simp_all
  refine ⟨?_, ?_, ?_, ?_, rfl, ?_, ?_⟩
  · refine iff_of_false ?_ fun unnamed => unnamed ⟨o, name, carries, named⟩
    rw [outcome_eq]
    split
    · nofun
    · split <;> nofun
  · intro o' name' carries' named'
    rw [outcome_eq]
    split
    next none => exact iff_of_true rfl none
    next some_filters => exact iff_of_false (by split <;> nofun) some_filters
  · intro o' name' carries' named'
    obtain ⟨rfl, rfl⟩ := only carries' named'
    rw [outcome_eq, change?_of_named carries named, Option.isSome_map]
    split
    next none =>
      refine iff_of_false nofun ?_
      rintro ⟨⟨entry, there, stands⟩, -⟩
      exact absurd stands (by simp [none entry there])
    next stands =>
      simp only [not_forall, Bool.not_eq_false] at stands
      obtain ⟨entry, there, stands⟩ := stands
      split
      next taken =>
        obtain ⟨first, there', taken⟩ := found.1 taken
        simp only [takes, Bool.and_eq_true] at taken
        exact iff_of_false nofun fun none => absurd taken.2 (by simp [none.2 first there' taken.1])
      next untaken =>
        refine iff_of_true rfl ⟨⟨entry, there, stands⟩, fun entry' there' stands' => ?_⟩
        rw [found] at untaken
        exact Bool.eq_false_iff.2 fun selects =>
          untaken ⟨entry', there', by simp [takes, stands', selects]⟩
  · intro o' name' carries' named'
    obtain ⟨rfl, rfl⟩ := only carries' named'
    exact forwarded
  · intro o' name' carries' named'
    obtain ⟨rfl, rfl⟩ := only carries' named'
    rw [forwarded, ← found, ← Option.isSome_map, ← head?_ownersOf planned]
    cases plan.ownersOf gvk o'.nsText name' <;> simp
  · intro e put
    rw [change?_of_named carries named] at put
    cases entry : set.entries.find? (takes resolve gvk o.nsText name) with
    | none => simp [entry] at put
    | some entry' =>
        simp only [entry, Option.map_some, Option.toList_some, List.mem_singleton] at put
        subst put
        rw [head?_ownersOf planned, entry]
        rfl

/-- What is said of a notification that a dispatcher drops. -/
theorem handles_dropped (planned : WatchPlan.of resolve set = .ok plan)
    {outcome : DispatchOutcome} (judged : (plan.filterTable.judge gvk n).1 = .drop outcome) :
    set.Handles resolve plan gvk n outcome [] := by
  by_cases unnamed : ∀ o, n.object? = some o → o.name? = none
  · rw [FilterTable.judge_of_unnamed unnamed] at judged
    cases judged
    exact handles_unnamed unnamed
  · simp only [not_forall] at unnamed
    obtain ⟨o, carries, named⟩ := unnamed
    obtain ⟨name, named⟩ := Option.ne_none_iff_exists'.1 named
    rw [judge_of_planned planned carries named] at judged
    split at judged
    next none =>
      cases judged
      have said := handles_named planned carries named _ (if_pos none).symm
      rwa [change?_of_unmet none] at said
    next met =>
      split at judged
      next change =>
        cases judged
        have said := handles_named planned carries named .filtered
          (by rw [if_neg met, change]; rfl)
        rwa [change] at said
      next => cases judged

/-- What is said of a notification whose change a dispatcher passes on. -/
theorem handles_forwarded (planned : WatchPlan.of resolve set = .ok plan) {e : ChangeEvent}
    (judged : (plan.filterTable.judge gvk n).1 = .forward e) :
    set.change? resolve gvk n = some e ∧ set.Handles resolve plan gvk n .forwarded [e] := by
  by_cases unnamed : ∀ o, n.object? = some o → o.name? = none
  · rw [FilterTable.judge_of_unnamed unnamed] at judged
    cases judged
  · simp only [not_forall] at unnamed
    obtain ⟨o, carries, named⟩ := unnamed
    obtain ⟨name, named⟩ := Option.ne_none_iff_exists'.1 named
    rw [judge_of_planned planned carries named] at judged
    split at judged
    next => cases judged
    next met =>
      split at judged
      next => cases judged
      next change =>
        cases judged
        have said := handles_named planned carries named .forwarded
          (by rw [if_neg met, change]; rfl)
        rw [change] at said
        exact ⟨change, said⟩

end InputSet

namespace DispatchWorld

variable {past : Past DispatchWorld Command} {w : DispatchWorld} {t : TaskId} {capacity : Nat}

/-- A call to a dispatcher that is made from the plan of an input set, while the channel is
open. When it has ended, its outcome and what it has put on the channel are those that
the input set says, and before that it has put nothing there. When nothing can move, it
has ended unless the channel is full and the call waits with its change. The plan names the
owners in order who declared a selector that takes the object, and none of them twice. -/
theorem handles_of_run (planned : WatchPlan.of resolve set = .ok plan)
    (run : conduct.Run (start plan.filterTable capacity) past w)
    (unclosed : w.channel.closed = false) (call : (calls past)[t]? = some (gvk, n)) :
    (∀ outcome, w.tasks[t]? = some (.ended outcome) →
      set.Handles resolve plan gvk n outcome (putBy t past)) ∧
    ((∀ outcome, w.tasks[t]? ≠ some (.ended outcome)) → putBy t past = []) ∧
    (Cooperative.Idle w → (∃ outcome, w.tasks[t]? = some (.ended outcome)) ∨
      ∃ e, w.tasks[t]? = some (.sending e) ∧ set.change? resolve gvk n = some e ∧
        w.channel.capacity ≤ w.channel.buffer.length) ∧
    ∀ ns name, plan.ownersOf gvk ns name = set.ownersOn resolve gvk ns name ∧
      (plan.ownersOf gvk ns name).Nodup := by
  have orderly := orderly_of_run run unclosed
  refine ⟨?_, ?_, ?_, ?_⟩
  · intro outcome ended
    cases orderly.fates t gvk n call with
    | fresh task | sending _ task => cases ended.symm.trans task
    | dropped outcome' task judged nothing =>
        cases ended.symm.trans task
        rw [nothing]
        exact InputSet.handles_dropped planned judged
    | passed e task judged once =>
        cases ended.symm.trans task
        rw [once]
        exact (InputSet.handles_forwarded planned judged).2
  · intro pending
    cases orderly.fates t gvk n call with
    | fresh _ _ nothing | sending _ _ _ nothing | dropped _ _ _ nothing => exact nothing
    | passed e ended => exact absurd ended (pending _)
  · intro idle
    refine (orderly.ended_or_full idle call).imp_right ?_
    rintro ⟨e, sending, judged, full⟩
    exact ⟨e, sending, (InputSet.handles_forwarded planned judged).1, full⟩
  · intro ns name
    have owners : plan.ownersOf gvk ns name = set.ownersOn resolve gvk ns name :=
      WatchPlan.ownersOf_of planned ns name
    exact ⟨owners, owners ▸ InputSet.nodup_ownersOn set resolve gvk ns name⟩

/-- Two owners, of whom the one that was declared later comes first in order, and whose
selectors overlap. -/
def overlapping : InputSet :=
  (InputSet.declare default "beta" [.declare (.core "v1" "configmaps") none none]).declare "alpha"
    [.declare (.core "v1" "secrets") none none,
      .declare (.core "v1" "configmaps") (some "default") (some "b")]

def overlappingPlan : WatchPlan where
  watches :=
    [⟨KindTable.coreKind "Secret" "secrets" true, [⟨"alpha", { id := .core "v1" "secrets" }⟩]⟩,
      ⟨KindTable.coreKind "ConfigMap" "configmaps" true,
        [⟨"alpha", ⟨.core "v1" "configmaps", some "default", some "b"⟩⟩,
          ⟨"beta", { id := .core "v1" "configmaps" }⟩]⟩]

/-- Three calls for a channel with room for one change: an object that only one of the
owners wants, a notification without an object, and an object that both want. The last
call waits until the first change is received. -/
def crossing : List (Happening Command) :=
  [.command (.handle Engine.configMap (.added (Engine.namedObject "a" "1"))),
    .command (.handle Engine.configMap (.deleted (.unseen "x" none))),
    .command (.handle Engine.configMap (.updated (Engine.namedObject "b" "2"))),
    .move 0, .move 2, .move 1, .command .receive, .move 2]

theorem handles_of_crossing :
    WatchPlan.of KindTable.builtin.resolve overlapping = .ok overlappingPlan ∧
    ∃ past w, conduct.Run (start overlappingPlan.filterTable 1) past w ∧
      w.channel.closed = false ∧
      (calls past)[2]? = some (Engine.configMap, .updated (Engine.namedObject "b" "2")) ∧
      w.tasks[2]? = some (.ended .forwarded) ∧ (putBy 2 past).map (·.owner) = ["alpha"] ∧
      overlappingPlan.ownersOf Engine.configMap "default" "b" = ["alpha", "beta"] ∧
      overlapping.Handles KindTable.builtin.resolve overlappingPlan Engine.configMap
        (.updated (Engine.namedObject "b" "2")) .forwarded (putBy 2 past) := by
  let w₀ := start overlappingPlan.filterTable 1
  have planned : WatchPlan.of KindTable.builtin.resolve overlapping = .ok overlappingPlan := by
    decide +kernel
  have begun : conduct.Run w₀ [] w₀ := .start
  have run := begun.follow crossing (by decide +kernel)
  obtain ⟨unclosed, call, ended, put, owners⟩ :
      let past := ((conduct.follow [] w₀ crossing).get (by decide +kernel)).1
      let w := ((conduct.follow [] w₀ crossing).get (by decide +kernel)).2
      w.channel.closed = false ∧
        (calls past)[2]? = some (Engine.configMap, .updated (Engine.namedObject "b" "2")) ∧
        w.tasks[2]? = some (.ended .forwarded) ∧ (putBy 2 past).map (·.owner) = ["alpha"] ∧
        overlappingPlan.ownersOf Engine.configMap "default" "b" = ["alpha", "beta"] := by
    decide +kernel
  have handled := (handles_of_run planned run unclosed call).1 _ ended
  exact ⟨planned, _, _, run, unclosed, call, ended, put, owners, handled⟩

end DispatchWorld

end ResourceWatch
