import Mathlib.Data.List.Nodup
import ResourceWatch.Proofs.Planning

/-!
# Selectors in groups

Planning goes through the selectors of an input set once. It stops at the first selector
that does not resolve. If it reaches the end, the watches are the groups of the selectors
that stand for one kind: the groups in the order in which their kinds are first met, every
selector in one group and at its place, and the kind of a group as its first selector
resolved it.

Planning tells of every selector that joins a group that is there already. So selectors are
as many as watches and selectors told of.
-/

namespace ResourceWatch

variable {resolve : Resolver} {set : InputSet} {plan : WatchPlan} {kind : ResolvedKind}
  {f : Filter} {gvk : Gvk} {e : WatchError} {entries later : List (String × Selector)}
  {log : List LogEvent} {owner : String} {selector : Selector}

def Selector.gvk? (resolve : Resolver) (s : Selector) : Option Gvk :=
  (resolve s.id).toOption.map (·.gvk)

theorem Selector.gvk?_of_ok (resolved : resolve selector.id = .ok kind) :
    selector.gvk? resolve = some kind.gvk := by
  simp [gvk?, resolved, Except.toOption]

theorem Selector.standsFor_iff {s : Selector} :
    s.standsFor resolve gvk = true ↔ s.gvk? resolve = some gvk := by
  rw [standsFor, gvk?]
  cases resolve s.id <;> simp [Except.toOption]

/-- Whether an error names the first of some selectors that does not resolve, with its owner
and the cause. -/
def NamesFirst (resolve : Resolver) (entries : List (String × Selector)) (e : WatchError) :
    Prop :=
  ∃ before owner selector cause later, entries = before ++ (owner, selector) :: later ∧
    (∀ entry ∈ before, ∃ kind, resolve entry.2.id = .ok kind) ∧
    resolve selector.id = .error cause ∧ e = .kindResolution owner selector cause

theorem namesFirst_nil : ¬ NamesFirst resolve [] e := by
  rintro ⟨before, owner, selector, cause, later, split, -⟩
  simp at split

theorem namesFirst_cons_of_error {cause : WatchError}
    (unresolved : resolve selector.id = .error cause) :
    NamesFirst resolve ((owner, selector) :: later) e ↔
      e = .kindResolution owner selector cause := by
  constructor
  · rintro ⟨before, owner', selector', cause', later', split, resolved, fails, rfl⟩
    obtain ⟨rfl, same⟩ | ⟨rest, rfl, -⟩ := List.cons_eq_append_iff.1 split
    · cases same
      cases unresolved.symm.trans fails
      rfl
    · obtain ⟨kind, ok⟩ := resolved (owner, selector) (by simp)
      cases unresolved.symm.trans ok
  · rintro rfl
    exact ⟨[], owner, selector, cause, later, rfl, by simp, unresolved, rfl⟩

theorem namesFirst_cons_of_ok (resolved : resolve selector.id = .ok kind) :
    NamesFirst resolve ((owner, selector) :: later) e ↔ NamesFirst resolve later e := by
  constructor
  · rintro ⟨before, owner', selector', cause, later', split, earlier, fails, rfl⟩
    obtain ⟨rfl, same⟩ | ⟨rest, rfl, rfl⟩ := List.cons_eq_append_iff.1 split
    · cases same
      cases resolved.symm.trans fails
    · exact ⟨rest, owner', selector', cause, later', rfl,
        fun entry there => earlier entry (List.mem_cons_of_mem _ there), fails, rfl⟩
  · rintro ⟨before, owner', selector', cause, later', rfl, earlier, fails, rfl⟩
    refine ⟨(owner, selector) :: before, owner', selector', cause, later', rfl, ?_, fails, rfl⟩
    intro entry there
    obtain rfl | there := List.mem_cons.1 there
    · exact ⟨kind, resolved⟩
    · exact earlier entry there

/-- A first selector that does not resolve is there unless all of them resolve. -/
theorem exists_namesFirst_iff :
    (∃ e, NamesFirst resolve entries e) ↔
      ∃ entry ∈ entries, ∃ cause, resolve entry.2.id = .error cause := by
  induction entries with
  | nil => simp [namesFirst_nil]
  | cons entry later ih =>
      obtain ⟨owner, selector⟩ := entry
      cases resolved : resolve selector.id with
      | error cause => simp [namesFirst_cons_of_error resolved, resolved]
      | ok kind => simp [namesFirst_cons_of_ok resolved, ih, resolved]

namespace WatchPlan

theorem find?_isSome_iff : (plan.find? gvk).isSome ↔ gvk ∈ plan.kinds := by
  rw [find?, List.find?_isSome, kinds, List.mem_map]
  simp

theorem filtersOf_of_mem (nodup : plan.kinds.Nodup) {watch : PlannedWatch}
    (member : watch ∈ plan.watches) : plan.filtersOf watch.kind.gvk = watch.filters := by
  obtain ⟨before, later, split⟩ := List.append_of_mem member
  rw [kinds, split, List.map_append, List.map_cons, List.nodup_append] at nodup
  have ahead : before.find? (·.kind.gvk == watch.kind.gvk) = none := by
    refine List.find?_eq_none.2 fun other there same => ?_
    exact nodup.2.2 _ (List.mem_map_of_mem there) _ List.mem_cons_self (by simpa using same)
  simp [filtersOf, find?, split, List.find?_append, ahead]

theorem kinds_add (plan : WatchPlan) (kind : ResolvedKind) (f : Filter) :
    (plan.add kind f).kinds =
      plan.kinds ++ if kind.gvk ∈ plan.kinds then [] else [kind.gvk] := by
  rw [add]
  split
  next there =>
    rw [if_pos (find?_isSome_iff.1 there), List.append_nil, kinds, List.map_map]
    refine List.map_congr_left fun watch _ => ?_
    dsimp only [Function.comp]
    split <;> rfl
  next missing =>
    rw [if_neg (mt find?_isSome_iff.2 missing)]
    simp [kinds]

theorem kind_of_mem_add {watch : PlannedWatch} {f : Filter}
    (member : watch ∈ (plan.add kind f).watches) :
    (∃ old ∈ plan.watches, watch.kind = old.kind) ∨
      (kind.gvk ∉ plan.kinds ∧ watch.kind = kind) := by
  rw [add] at member
  split at member
  next there =>
    obtain ⟨old, before, rfl⟩ := List.mem_map.1 member
    refine .inl ⟨old, before, ?_⟩
    split <;> rfl
  next missing =>
    obtain before | rfl := List.mem_append.1 member |>.imp_right List.mem_singleton.1
    · exact .inl ⟨watch, before, rfl⟩
    · exact .inr ⟨mt find?_isSome_iff.2 missing, rfl⟩

theorem filters_add (nodup : plan.kinds.Nodup) (kind : ResolvedKind) (f : Filter) :
    ((plan.add kind f).watches.flatMap (·.filters)).Perm
      (plan.watches.flatMap (·.filters) ++ [f]) := by
  rw [add]
  split
  next there =>
    obtain ⟨watch, member, same⟩ := List.mem_map.1 (find?_isSome_iff.1 there)
    obtain ⟨before, later, split⟩ := List.append_of_mem member
    rw [kinds, split, List.map_append, List.map_cons, List.nodup_append, List.nodup_cons,
      same] at nodup
    obtain ⟨-, ⟨behind, -⟩, apart⟩ := nodup
    have ahead : kind.gvk ∉ before.map (·.kind.gvk) :=
      fun again => apart _ again _ List.mem_cons_self rfl
    -- the watches beside the one of the kind stay as they are
    have others : ∀ rest : List PlannedWatch, kind.gvk ∉ rest.map (·.kind.gvk) →
        rest.map (fun other => if other.kind.gvk == kind.gvk then
          { other with filters := other.filters ++ [f] } else other) = rest := by
      intro rest missing
      refine (List.map_congr_left fun other member => ?_).trans (List.map_id _)
      have differs : other.kind.gvk ≠ kind.gvk :=
        fun same => missing (same ▸ List.mem_map_of_mem member)
      simp [differs]
    simp only [split, List.map_append, List.map_cons, others before ahead, others later behind,
      same, beq_self_eq_true, if_true, List.flatMap_append, List.flatMap_cons, List.append_assoc]
    exact (List.perm_append_comm.append_left _).append_left _
  next missing => simp

/-- The watches of a plan are the groups of selectors that stand for one kind. -/
structure Groups (resolve : Resolver) (entries : List (String × Selector)) (plan : WatchPlan) :
    Prop where
  /-- Every kind is watched once. -/
  nodup : plan.kinds.Nodup
  /-- Kinds stand in the order in which they are first met. -/
  kinds : plan.kinds = (entries.filterMap fun entry => entry.2.gvk? resolve).eraseDups
  /-- The kind of a watch is what the first selector of its group resolves to. -/
  first : ∀ watch ∈ plan.watches,
    ((entries.filter fun entry => entry.2.standsFor resolve watch.kind.gvk).head?.map
      fun entry => resolve entry.2.id) = some (.ok watch.kind)
  /-- Every selector is in a group, as often as it is declared. -/
  whole : (plan.watches.flatMap (·.filters)).Perm
    (entries.map fun entry => ⟨entry.1, entry.2⟩)

namespace Groups

theorem empty : Groups resolve [] {} := by
  constructor <;> simp [WatchPlan.kinds]

theorem mem_kinds (groups : Groups resolve entries plan) :
    gvk ∈ plan.kinds ↔ gvk ∈ entries.filterMap fun entry => entry.2.gvk? resolve := by
  rw [groups.kinds, List.mem_eraseDups]

theorem add (groups : Groups resolve entries plan) (resolved : resolve selector.id = .ok kind) :
    Groups resolve (entries ++ [(owner, selector)]) (plan.add kind ⟨owner, selector⟩) where
  nodup := by
    rw [kinds_add]
    split
    · simpa using groups.nodup
    · rename_i missing
      exact groups.nodup.append (List.nodup_singleton _) (by simpa using missing)
  kinds := by
    have met : selector.gvk? resolve = some kind.gvk := Selector.gvk?_of_ok resolved
    have known : kind.gvk ∈ plan.kinds ↔ _ := groups.mem_kinds
    rw [kinds_add, List.filterMap_append, List.eraseDups_append, ← groups.kinds]
    generalize entries.filterMap (fun entry => entry.2.gvk? resolve) = earlier at known ⊢
    by_cases there : kind.gvk ∈ earlier
    · simp [met, known, there, List.removeAll]
    · simp [met, known, there, List.removeAll, List.eraseDups_cons]
  first := by
    intro watch member
    rw [List.filter_append, List.head?_append]
    obtain ⟨old, there, same⟩ | ⟨missing, same⟩ := kind_of_mem_add member
    · obtain ⟨entry, head, ok⟩ := Option.map_eq_some_iff.1 (groups.first old there)
      simp [same, head, ok]
    · have unmet : entries.filter (fun entry => entry.2.standsFor resolve kind.gvk) = [] := by
        refine List.filter_eq_nil_iff.2 fun entry there stands => missing ?_
        exact groups.mem_kinds.2
          (List.mem_filterMap.2 ⟨entry, there, Selector.standsFor_iff.1 stands⟩)
      have stands : selector.standsFor resolve kind.gvk = true :=
        Selector.standsFor_iff.2 (Selector.gvk?_of_ok resolved)
      simp [same, unmet, stands, resolved]
  whole := by
    rw [List.map_append]
    exact (filters_add groups.nodup kind _).trans (groups.whole.append_right _)

end Groups

/-- Planning that reaches the end has made the groups of all selectors. -/
theorem groups_of_extend {p : WatchPlan} (groups : Groups resolve entries p)
    (planned : (Planning.extend resolve p log later).result = .ok plan) :
    Groups resolve (entries ++ later) plan := by
  induction later generalizing entries p log with
  | nil =>
      cases planned
      simpa using groups
  | cons entry later ih =>
      obtain ⟨owner, selector⟩ := entry
      rw [Planning.extend] at planned
      split at planned
      next => cases planned
      next kind resolved => simpa using ih (groups.add resolved) planned

/-- Planning fails exactly with an error that names the first selector that does not
resolve. -/
theorem error_of_extend {p : WatchPlan} :
    (Planning.extend resolve p log entries).result = .error e ↔ NamesFirst resolve entries e := by
  induction entries generalizing p log with
  | nil => simp [Planning.extend, namesFirst_nil]
  | cons entry later ih =>
      obtain ⟨owner, selector⟩ := entry
      rw [Planning.extend]
      split
      next cause unresolved => simp [namesFirst_cons_of_error unresolved, eq_comm]
      next kind resolved => rw [ih, namesFirst_cons_of_ok resolved]

/-- Selectors are as many as watches, and selectors that joined one. -/
theorem duplicates_of_extend {p : WatchPlan}
    (planned : (Planning.extend resolve p log entries).result = .ok plan) :
    (Planning.extend resolve p log entries).duplicates + plan.watches.length =
      Planning.duplicates ⟨.ok p, log⟩ + p.watches.length + entries.length := by
  induction entries generalizing p log with
  | nil =>
      cases planned
      rfl
  | cons entry later ih =>
      obtain ⟨owner, selector⟩ := entry
      rw [Planning.extend] at planned ⊢
      split at planned
      next => cases planned
      next kind resolved =>
        rw [ih planned, add]
        split <;> simp [Planning.duplicates] <;> omega

end WatchPlan

namespace Planning

theorem result_of (resolve : Resolver) (set : InputSet) :
    (Planning.of resolve set).result = (Planning.extend resolve {} [] set.entries).result := by
  rw [Planning.of]
  split <;> rfl

/-- Planning an input set tells of a selector that joined a group, for every selector that
is not the first of its group. -/
theorem duplicates_of (planned : WatchPlan.of resolve set = .ok plan) :
    (Planning.of resolve set).duplicates + plan.watches.length = set.size := by
  have extended : (Planning.extend resolve {} [] set.entries).result = .ok plan :=
    (result_of resolve set).symm.trans planned
  have told : (Planning.of resolve set).duplicates =
      (Planning.extend resolve {} [] set.entries).duplicates := by
    rw [Planning.of]
    simp [extended, duplicates]
  rw [told, WatchPlan.duplicates_of_extend extended]
  simp [duplicates, InputSet.size]

end Planning

theorem WatchPlan.groups_of (planned : WatchPlan.of resolve set = .ok plan) :
    WatchPlan.Groups resolve set.entries plan := by
  have extended : (Planning.extend resolve {} [] set.entries).result = .ok plan :=
    (Planning.result_of resolve set).symm.trans planned
  simpa using groups_of_extend .empty extended

/-- The selectors that a plan shows to share a watch are those that planning told of. -/
theorem WatchPlan.shared_of (planned : WatchPlan.of resolve set = .ok plan) :
    plan.shared = (Planning.of resolve set).duplicates := by
  have whole := (groups_of planned).whole.length_eq
  have told := Planning.duplicates_of planned
  rw [List.length_map] at whole
  rw [InputSet.size] at told
  rw [shared]
  omega

/-- There is no plan exactly if a selector does not resolve; the first such selector is
named. -/
theorem WatchPlan.error_of :
    WatchPlan.of resolve set = .error e ↔ NamesFirst resolve set.entries e := by
  rw [WatchPlan.of, Planning.result_of, error_of_extend]

end ResourceWatch
