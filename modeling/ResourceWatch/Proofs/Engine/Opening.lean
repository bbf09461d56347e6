import ResourceWatch.Engine.Run
import ResourceWatch.Proofs.Grouping

/-!
# One stream for each group

Registration goes through the watches of a plan in their order and opens the stream of each.
If all of them can be opened, every kind was asked for once. Otherwise registration stops at
the first that cannot: the kinds in front of it were asked for and opened, it was asked for,
and no other was. A token that has fired keeps registration from asking for anything.
-/

namespace ResourceWatch

namespace Provider

variable {p p' : Provider} {cache cache' : Cache} {gvk : Gvk} {gvks : List Gvk}

@[simp] theorem put_opened (p : Provider) (f : Feed) : (p.put f).opened = p.opened := by
  rw [put]
  split <;> rfl

/-- A request is remembered, whatever comes of it. -/
theorem opened_of_open? {answer : Except WatchError Cache}
    (asked : p.open? cache gvk = (p', answer)) : p'.opened = p.opened ++ [gvk] := by
  have told : (p.open? cache gvk).1.opened = p.opened ++ [gvk] := by
    rw [open?]
    dsimp only
    split
    · rfl
    · split
      · rfl
      · split
        · rfl
        · exact put_opened _ _
  rw [← told, asked]

/-- The streams of kinds are opened one after the other, and none of them fails. -/
inductive OpensAll : Provider → Cache → List Gvk → Provider → Cache → Prop where
  | done (p : Provider) (cache : Cache) : OpensAll p cache [] p cache
  | next {p p₁ p' : Provider} {cache cache₁ cache' : Cache} {gvk : Gvk} {gvks : List Gvk}
      (opened : p.open? cache gvk = (p₁, .ok cache₁))
      (rest : OpensAll p₁ cache₁ gvks p' cache') : OpensAll p cache (gvk :: gvks) p' cache'

theorem OpensAll.opened (all : OpensAll p cache gvks p' cache') :
    p'.opened = p.opened ++ gvks := by
  induction all with
  | done => simp
  | next opened _ ih => rw [ih, opened_of_open? opened, List.append_assoc, List.singleton_append]

end Provider

namespace Engine

variable {w w' : Engine} {r r' : Registration} {watches : List PlannedWatch} {e : WatchError}

@[simp] theorem abort_provider (w : Engine) (pumps : List TaskId) :
    (w.abort pumps).provider = w.provider := by
  rw [abort]
  induction pumps generalizing w with
  | nil => rfl
  | cons t rest ih =>
      rw [List.foldl_cons, ih]
      split
      · split <;> rfl
      · rfl

/-- Opening streams succeeds if every one of them can be opened. -/
theorem opensAll_of_openStreams (opened : w.openStreams r watches = (w', .ok r')) :
    w.provider.OpensAll w.shop.cache (watches.map (·.kind.gvk)) w'.provider w'.shop.cache ∧
      r'.kinds = r.kinds ++ watches.map (·.kind.gvk) := by
  induction watches generalizing w r with
  | nil =>
      cases opened
      exact ⟨.done _ _, by simp⟩
  | cons watch rest ih =>
      rw [openStreams] at opened
      split at opened
      · cases opened
      · dsimp only at opened
        split at opened
        · cases opened
        · rename_i provider cache first
          obtain ⟨all, kinds⟩ := ih opened
          exact ⟨.next first all, by simp [kinds]⟩

/-- Opening streams stops at the first that cannot be opened, or before all of them if the
token has fired. -/
theorem stops_of_openStreams (opened : w.openStreams r watches = (w', .error e)) :
    (w.fired = true ∧ e = .cancelled ∧ w'.provider = w.provider) ∨
    ∃ before gvk later p cache, watches.map (·.kind.gvk) = before ++ gvk :: later ∧
      w.provider.OpensAll w.shop.cache before p cache ∧
      p.open? cache gvk = (w'.provider, .error e) := by
  induction watches generalizing w r with
  | nil => cases opened
  | cons watch rest ih =>
      rw [openStreams] at opened
      split at opened
      · rename_i fired
        cases opened
        exact .inl ⟨fired, rfl, by simp [drop]⟩
      · rename_i unfired
        dsimp only at opened
        split at opened
        · rename_i provider refused answer
          cases opened
          exact .inr ⟨[], _, _, _, _, rfl, .done _ _, by simpa [drop] using answer⟩
        · rename_i provider cache first
          obtain ⟨fired, -⟩ | ⟨before, gvk, later, p, cache', split, all, refused⟩ := ih opened
          · exact absurd fired unfired
          · exact .inr ⟨_ :: before, gvk, later, p, cache', by simp [split],
              .next first all, refused⟩

theorem opensAll_of_register (registered : w.register = (w', .ok r)) :
    w.provider.OpensAll w.shop.cache w.plan.kinds w'.provider w'.shop.cache ∧
      r.kinds = w.plan.kinds := by
  rw [register] at registered
  split at registered
  · rename_i opened
    cases registered
    exact opensAll_of_openStreams opened
  · cases registered

theorem stops_of_register (registered : w.register = (w', .error e)) :
    (w.fired = true ∧ e = .cancelled ∧ w'.provider = w.provider) ∨
    ∃ before gvk later p cache, w.plan.kinds = before ++ gvk :: later ∧
      w.provider.OpensAll w.shop.cache before p cache ∧
      p.open? cache gvk = (w'.provider, .error e) := by
  rw [register] at registered
  split at registered
  · cases registered
  · rename_i opened
    cases registered
    exact stops_of_openStreams opened

/-- Registration asks for some of the first kinds of the plan, and for nothing else. -/
theorem asked_of_register (w : Engine) :
    ∃ asked, asked <+: w.plan.kinds ∧
      w.register.1.provider.opened = w.provider.opened ++ asked := by
  cases registered : w.register with
  | mk w' answer =>
      cases answer with
      | ok r =>
          exact ⟨w.plan.kinds, List.prefix_rfl, (opensAll_of_register registered).1.opened⟩
      | error e =>
          obtain ⟨-, -, same⟩ | ⟨before, gvk, later, p, cache, split, all, refused⟩ :=
            stops_of_register registered
          · exact ⟨[], List.nil_prefix, by simp [same]⟩
          · refine ⟨before ++ [gvk], ⟨later, by simp [split]⟩, ?_⟩
            rw [Provider.opened_of_open? refused, all.opened, List.append_assoc]

/-- Planning groups the selectors of an input set by the kinds that they stand for, and
registration opens one stream for each group.

There is no plan exactly if some selector does not resolve, and the first such selector is
named with its owner. Otherwise the kinds of the plan are distinct and stand in the order in
which they are first met. A watch keeps the kind as the first of its selectors resolved it,
and its filters are the selectors that stand for the kind, in their order; all filters
together are all selectors. Planning tells of as many selectors that join a group as there
are selectors without groups, and the filter table has the filters of every watch, once.

Registration asks for the kinds of a plan one after the other, and for no kind twice. If it
succeeds it has asked for all of them; if it fails the last one that it asked for could not
be opened, or the token had fired and it asked for none. -/
theorem opens_groups_once (resolve : Resolver) (set : InputSet) :
    (∀ e, WatchPlan.of resolve set = .error e ↔ NamesFirst resolve set.entries e) ∧
    ((∃ e, WatchPlan.of resolve set = .error e) ↔
      ∃ entry ∈ set.entries, ∃ cause, resolve entry.2.id = .error cause) ∧
    ∀ plan, WatchPlan.of resolve set = .ok plan →
      (plan.kinds.Nodup ∧
        plan.kinds = (set.entries.filterMap fun entry => entry.2.gvk? resolve).eraseDups) ∧
      (∀ watch ∈ plan.watches,
        ((set.entriesOn resolve watch.kind.gvk).head?.map fun entry => resolve entry.2.id) =
            some (.ok watch.kind) ∧
          watch.filters = (set.entriesOn resolve watch.kind.gvk).map
            fun entry => ⟨entry.1, entry.2⟩) ∧
      (plan.watches.flatMap (·.filters)).Perm (set.entries.map fun entry => ⟨entry.1, entry.2⟩) ∧
      (Planning.of resolve set).duplicates + plan.watches.length = set.size ∧
      (plan.filterTable.rows.map (·.1) = plan.kinds ∧
        ∀ watch ∈ plan.watches,
          plan.filterTable.filtersOf watch.kind.gvk = watch.filters) ∧
      ∀ w : Engine, w.plan = plan →
        (∀ gvk, w.register.1.provider.requests gvk ≤ w.provider.requests gvk + 1) ∧
        (∀ w' r, w.register = (w', .ok r) →
          w.provider.OpensAll w.shop.cache plan.kinds w'.provider w'.shop.cache ∧
          w'.provider.opened = w.provider.opened ++ plan.kinds ∧ r.kinds = plan.kinds) ∧
        ∀ w' e, w.register = (w', .error e) →
          (w.fired = true ∧ e = .cancelled ∧ w'.provider = w.provider) ∨
          ∃ before gvk later p cache, plan.kinds = before ++ gvk :: later ∧
            w.provider.OpensAll w.shop.cache before p cache ∧
            p.open? cache gvk = (w'.provider, .error e) ∧
            w'.provider.opened = w.provider.opened ++ before ++ [gvk] := by
  refine ⟨fun e => WatchPlan.error_of, ?_, ?_⟩
  · simp only [WatchPlan.error_of]
    exact exists_namesFirst_iff
  · intro plan planned
    have groups := WatchPlan.groups_of planned
    have filters : ∀ watch ∈ plan.watches, plan.filtersOf watch.kind.gvk = watch.filters :=
      fun watch member => WatchPlan.filtersOf_of_mem groups.nodup member
    refine ⟨⟨groups.nodup, groups.kinds⟩, ?_, groups.whole, Planning.duplicates_of planned,
      ⟨?_, ?_⟩, ?_⟩
    · intro watch member
      refine ⟨groups.first watch member, ?_⟩
      rw [← filters watch member, WatchPlan.filtersOf_of planned]
    · simp [WatchPlan.filterTable, WatchPlan.kinds]
    · intro watch member
      rw [WatchPlan.filtersOf_filterTable, filters watch member]
    · rintro w rfl
      refine ⟨fun gvk => ?_, ?_, ?_⟩
      · obtain ⟨asked, first, opened⟩ := w.asked_of_register
        have once : asked.count gvk ≤ 1 :=
          List.nodup_iff_count_le_one.1 (groups.nodup.sublist first.sublist) gvk
        simp only [Provider.requests, opened, List.count_append]
        omega
      · intro w' r registered
        obtain ⟨all, kinds⟩ := opensAll_of_register registered
        exact ⟨all, all.opened, kinds⟩
      · intro w' e registered
        refine (stops_of_register registered).imp_right ?_
        rintro ⟨before, gvk, later, p, cache, split, all, refused⟩
        exact ⟨before, gvk, later, p, cache, split, all, refused,
          by rw [Provider.opened_of_open? refused, all.opened]⟩

/-- Two owners whose selectors name one kind by two types. -/
def aliased : InputSet :=
  (InputSet.declare default "beta"
    [.declare (.core "v1" "configmaps") (some "default") none]).declare
    "alpha" [.declare (.core "v1" "cm") none none, .declare (.core "v1" "secrets") none none]

/-- The kinds of a table in which both types stand for the kind. -/
def aliases : KindTable :=
  KindTable.builtin.insert (KindTable.customKind (.core "v1" "cm") ⟨"", "v1", "ConfigMap"⟩ true)

def aliasedPlan : WatchPlan where
  watches :=
    [⟨KindTable.customKind (.core "v1" "cm") ⟨"", "v1", "ConfigMap"⟩ true,
        [⟨"alpha", { id := .core "v1" "cm" }⟩,
          ⟨"beta", ⟨.core "v1" "configmaps", some "default", none⟩⟩]⟩,
      ⟨KindTable.coreKind "Secret" "secrets" true, [⟨"alpha", { id := .core "v1" "secrets" }⟩]⟩]

theorem opens_groups_once_of_aliased :
    (WatchPlan.of aliases.resolve aliased = .ok aliasedPlan ∧
      (Planning.of aliases.resolve aliased).duplicates + 2 = 3 ∧
      ∃ w' r, (ofPlan {} aliasedPlan).register = (w', .ok r) ∧
        w'.provider.opened = [⟨"", "v1", "ConfigMap"⟩, ⟨"", "v1", "Secret"⟩]) ∧
    WatchPlan.of KindTable.builtin.resolve aliased =
      .error (.kindResolution "alpha" { id := .core "v1" "cm" }
        (.unknownKind (.core "v1" "cm") .noMatch)) := by
  have planned : WatchPlan.of aliases.resolve aliased = .ok aliasedPlan := by decide +kernel
  obtain ⟨-, -, good⟩ := opens_groups_once aliases.resolve aliased
  obtain ⟨-, -, -, shared, -, opening⟩ := good aliasedPlan planned
  obtain ⟨-, well, -⟩ := opening (ofPlan {} aliasedPlan) rfl
  obtain ⟨first, -⟩ := opens_groups_once KindTable.builtin.resolve aliased
  refine ⟨⟨planned, shared, ?_⟩, (first _).2 ?_⟩
  · cases registered : (ofPlan {} aliasedPlan).register with
    | mk w' answer =>
        cases answer with
        | error e =>
            have opens : (ofPlan {} aliasedPlan).register.2.isOk = true := by decide +kernel
            rw [registered] at opens
            cases opens
        | ok r => exact ⟨w', r, rfl, (well w' r registered).2.1⟩
  · exact ⟨[], _, _, _, _, rfl, by simp, by decide +kernel, rfl⟩

end Engine

end ResourceWatch
