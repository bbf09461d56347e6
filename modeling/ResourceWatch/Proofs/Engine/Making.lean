import ResourceWatch.Engine.Run
import ResourceWatch.Proofs.Grouping

/-!
# What an engine is made from

An engine is made for every input set that can be used: one with a selector, all of whose
selectors can be watched and resolve. Any other set is refused for one reason. An empty set
is refused as empty. A selector that can never be watched is named before any that does not
resolve, even one that stands in front of it; of several the first is named, with the first
of its defects. Otherwise the first selector that does not resolve is named.

Making an engine asks the provider for nothing.
-/

namespace ResourceWatch

variable {resolve : Resolver} {set : InputSet} {owner : String} {selector : Selector}
  {entries : List (String × Selector)} {e : InputError}

structure Selector.Watchable (owner : String) (selector : Selector) : Prop where
  owner : owner ≠ ""
  version : selector.id.version ≠ ""
  resource : selector.id.resource ≠ ""
  /-- The resource is no part of another one. -/
  whole : '/' ∉ selector.id.resource.toList

/-- The first defect of a selector of an owner, in the order in which they are looked for. -/
inductive SelectorDefect.First (owner : String) (selector : Selector) : SelectorDefect → Prop where
  | ownerEmpty (unowned : owner = "") : First owner selector .ownerEmpty
  | versionEmpty (owned : owner ≠ "") (none : selector.id.version = "") :
      First owner selector .versionEmpty
  | resourceEmpty (owned : owner ≠ "") (version : selector.id.version ≠ "")
      (none : selector.id.resource = "") : First owner selector .resourceEmpty
  | subresource (owned : owner ≠ "") (version : selector.id.version ≠ "")
      (resource : selector.id.resource ≠ "") (part : '/' ∈ selector.id.resource.toList) :
      First owner selector .subresource

/-- Whether an error names the first of some selectors that can never be watched, with its
owner and its first defect. -/
def NamesDefect (entries : List (String × Selector)) (e : InputError) : Prop :=
  ∃ before owner selector defect later, entries = before ++ (owner, selector) :: later ∧
    (∀ entry ∈ before, entry.2.Watchable entry.1) ∧
    SelectorDefect.First owner selector defect ∧ e = .unsupported owner selector defect

namespace InputSet

structure Usable (resolve : Resolver) (set : InputSet) : Prop where
  nonempty : set.entries ≠ []
  watchable : ∀ entry ∈ set.entries, entry.2.Watchable entry.1
  resolves : ∀ entry ∈ set.entries, ∃ kind, resolve entry.2.id = .ok kind

inductive Refused (resolve : Resolver) (set : InputSet) : WatchError → Prop where
  | empty (none : set.entries = []) : Refused resolve set (.invalidInput .empty)
  | unsupported {e : InputError} (first : NamesDefect set.entries e) :
      Refused resolve set (.invalidInput e)
  | unresolved {e : WatchError} (watchable : ∀ entry ∈ set.entries, entry.2.Watchable entry.1)
      (first : NamesFirst resolve set.entries e) : Refused resolve set e

end InputSet

/-! ## Checking the set -/

theorem SelectorDefect.of?_eq_some_iff {defect : SelectorDefect} :
    SelectorDefect.of? owner selector = some defect ↔ First owner selector defect := by
  simp only [of?, String.isEmpty_iff, List.contains_iff_mem]
  constructor
  · intro found
    split at found
    next unowned => cases found; exact .ownerEmpty unowned
    next owned =>
    split at found
    next none => cases found; exact .versionEmpty owned none
    next version =>
    split at found
    next none => cases found; exact .resourceEmpty owned version none
    next resource =>
    split at found
    next part => cases found; exact .subresource owned version resource part
    next => cases found
  · rintro (unowned | ⟨owned, none⟩ | ⟨owned, version, none⟩ | ⟨owned, version, resource, part⟩)
    · rw [if_pos unowned]
    · rw [if_neg owned, if_pos none]
    · rw [if_neg owned, if_neg version, if_pos none]
    · rw [if_neg owned, if_neg version, if_neg resource, if_pos part]

theorem SelectorDefect.of?_eq_none_iff :
    SelectorDefect.of? owner selector = none ↔ selector.Watchable owner := by
  simp only [of?, String.isEmpty_iff, List.contains_iff_mem]
  constructor
  · intro sound
    split at sound
    · cases sound
    next owned =>
    split at sound
    · cases sound
    next version =>
    split at sound
    · cases sound
    next resource =>
    split at sound
    · cases sound
    next whole => exact ⟨owned, version, resource, whole⟩
  · rintro ⟨owned, version, resource, whole⟩
    rw [if_neg owned, if_neg version, if_neg resource, if_neg whole]

namespace InputSet

theorem exists_of_isOk {x : Except WatchError ResolvedKind} (ok : x.isOk = true) :
    ∃ kind, x = .ok kind := by
  cases x with
  | error e => cases ok
  | ok kind => exact ⟨kind, rfl⟩

instance (owner : String) (selector : Selector) : Decidable (selector.Watchable owner) :=
  decidable_of_iff _ SelectorDefect.of?_eq_none_iff

/-- Whether a set can be used can be tried out. -/
instance (resolve : Resolver) (set : InputSet) : Decidable (set.Usable resolve) :=
  decidable_of_iff
    (set.entries ≠ [] ∧ (∀ entry ∈ set.entries, entry.2.Watchable entry.1) ∧
      ∀ entry ∈ set.entries, (resolve entry.2.id).isOk = true)
    ⟨fun ⟨nonempty, watchable, resolves⟩ => ⟨nonempty, watchable, fun entry member =>
        exists_of_isOk (resolves entry member)⟩,
      fun ⟨nonempty, watchable, resolves⟩ => ⟨nonempty, watchable, fun entry member => by
        obtain ⟨kind, resolved⟩ := resolves entry member
        rw [resolved]
        rfl⟩⟩

theorem firstDefect?_eq_some_iff : firstDefect? entries = some e ↔ NamesDefect entries e := by
  rw [firstDefect?, List.findSome?_eq_some_iff, NamesDefect]
  constructor
  · rintro ⟨before, ⟨owner, selector⟩, later, split, found, sound⟩
    obtain ⟨defect, first, rfl⟩ := Option.map_eq_some_iff.1 found
    refine ⟨before, owner, selector, defect, later, split, fun entry member => ?_,
      SelectorDefect.of?_eq_some_iff.1 first, rfl⟩
    exact SelectorDefect.of?_eq_none_iff.1 (Option.map_eq_none_iff.1 (sound entry member))
  · rintro ⟨before, owner, selector, defect, later, split, sound, first, rfl⟩
    refine ⟨before, (owner, selector), later, split, ?_, fun entry member => ?_⟩
    · exact Option.map_eq_some_iff.2 ⟨defect, SelectorDefect.of?_eq_some_iff.2 first, rfl⟩
    · exact Option.map_eq_none_iff.2 (SelectorDefect.of?_eq_none_iff.2 (sound entry member))

theorem firstDefect?_eq_none_iff :
    firstDefect? entries = none ↔ ∀ entry ∈ entries, entry.2.Watchable entry.1 := by
  rw [firstDefect?, List.findSome?_eq_none_iff]
  simp only [Option.map_eq_none_iff, SelectorDefect.of?_eq_none_iff]

theorem isEmpty_iff : set.isEmpty = true ↔ set.entries = [] := by
  simp [isEmpty, size]

theorem check_eq_ok_iff :
    set.check = .ok () ↔ set.entries ≠ [] ∧ ∀ entry ∈ set.entries, entry.2.Watchable entry.1 := by
  rw [check, ← firstDefect?_eq_none_iff]
  split
  next empty => simp [isEmpty_iff.1 empty]
  next some =>
    have nonempty := mt isEmpty_iff.2 some
    split
    next found => simp [found]
    next sound => simp [nonempty, sound]

theorem check_eq_error_iff :
    set.check = .error e ↔ (set.entries = [] ∧ e = .empty) ∨ NamesDefect set.entries e := by
  rw [check, ← firstDefect?_eq_some_iff]
  split
  next empty => simp [isEmpty_iff.1 empty, firstDefect?, eq_comm]
  next some =>
    have nonempty := mt isEmpty_iff.2 some
    split
    next found => simp [nonempty, found]
    next sound => simp [nonempty, sound]

end InputSet

/-! ## Making the engine -/

namespace Engine

/-- A set that is refused is refused for what is the matter with it. -/
theorem makeOn_of_refused (provider : Provider) (options : EngineOptions) {e : WatchError}
    (refused : set.Refused resolve e) :
    makeOn provider options resolve set = (provider, .error (.refused e)) := by
  obtain none | first | ⟨watchable, first⟩ := refused
  · rw [makeOn, InputSet.check_eq_error_iff.2 (.inl ⟨none, rfl⟩)]
  · rw [makeOn, InputSet.check_eq_error_iff.2 (.inr first)]
  · have nonempty : set.entries ≠ [] := by
      obtain ⟨before, owner, selector, cause, later, split, -⟩ := first
      simp [split]
    rw [makeOn, InputSet.check_eq_ok_iff.2 ⟨nonempty, watchable⟩, WatchPlan.error_of.2 first]

/-- A set that can be used has a plan, and the plan watches something. -/
theorem exists_plan_of_usable (usable : set.Usable resolve) :
    ∃ plan, WatchPlan.of resolve set = .ok plan ∧ plan.watches ≠ [] := by
  cases planned : WatchPlan.of resolve set with
  | error e =>
      obtain ⟨entry, member, cause, unresolved⟩ :=
        exists_namesFirst_iff.1 ⟨e, WatchPlan.error_of.1 planned⟩
      obtain ⟨kind, resolved⟩ := usable.resolves entry member
      cases unresolved.symm.trans resolved
  | ok plan =>
      refine ⟨plan, rfl, fun none => usable.nonempty ?_⟩
      have whole := (WatchPlan.groups_of planned).whole
      simpa [none] using whole

/-- A set that can be used is refused only for want of room. -/
theorem makeOn_of_fits (provider : Provider) {options : EngineOptions}
    (usable : set.Usable resolve) (fits : options.capacity ≤ Channel.maxCapacity) :
    ∃ plan, WatchPlan.of resolve set = .ok plan ∧ plan.watches ≠ [] ∧
      makeOn provider options resolve set =
        (provider, .ok { ofPlan options plan with provider }) := by
  obtain ⟨plan, planned, watches⟩ := exists_plan_of_usable usable
  refine ⟨plan, planned, watches, ?_⟩
  rw [makeOn, InputSet.check_eq_ok_iff.2 ⟨usable.nonempty, usable.watchable⟩]
  simp only [planned, if_neg (Nat.not_lt.2 fits)]

theorem makeOn_of_large (provider : Provider) {options : EngineOptions}
    (usable : set.Usable resolve) (large : Channel.maxCapacity < options.capacity) :
    makeOn provider options resolve set = (provider, .error .channelTooLarge) := by
  obtain ⟨plan, planned, -⟩ := exists_plan_of_usable usable
  rw [makeOn, InputSet.check_eq_ok_iff.2 ⟨usable.nonempty, usable.watchable⟩]
  simp only [planned, if_pos large]

theorem usable_or_refused (resolve : Resolver) (set : InputSet) :
    set.Usable resolve ∨ ∃ e, set.Refused resolve e := by
  cases checked : set.check with
  | error e =>
      obtain ⟨none, rfl⟩ | first := InputSet.check_eq_error_iff.1 checked
      · exact .inr ⟨_, .empty none⟩
      · exact .inr ⟨_, .unsupported first⟩
  | ok =>
      obtain ⟨nonempty, watchable⟩ := InputSet.check_eq_ok_iff.1 checked
      by_cases resolves : ∃ entry ∈ set.entries, ∃ cause, resolve entry.2.id = .error cause
      · obtain ⟨e, first⟩ := exists_namesFirst_iff.2 resolves
        exact .inr ⟨e, .unresolved watchable first⟩
      · refine .inl ⟨nonempty, watchable, fun entry member => ?_⟩
        cases resolved : resolve entry.2.id with
        | error cause => exact absurd ⟨entry, member, cause, resolved⟩ resolves
        | ok kind => exact ⟨kind, rfl⟩

/-- An engine with room for its changes is made exactly for the sets that can be used, and any
other set is refused for the one reason that there is to refuse it. Either way the provider is
left as it was, so no stream has been asked for. An engine that is made goes by the plan of its
set, which watches something; it has the provider that it was made on, and neither a task nor a
word from the gate. -/
theorem made_iff_usable (options : EngineOptions) (room : options.capacity ≤ Channel.maxCapacity)
    (provider : Provider) (resolve : Resolver) (set : InputSet) :
    ((∃ w, (makeOn provider options resolve set).2 = .ok w) ↔ set.Usable resolve) ∧
    (∀ fault, (makeOn provider options resolve set).2 = .error fault ↔
      ∃ e, fault = .refused e ∧ set.Refused resolve e) ∧
    (makeOn provider options resolve set).1 = provider ∧
    ∀ w, (makeOn provider options resolve set).2 = .ok w →
      WatchPlan.of resolve set = .ok w.plan ∧ w.plan.watches ≠ [] ∧ w.gate = .pending ∧
        w.provider = provider ∧ w.tasks = [] := by
  obtain usable | ⟨e, refused⟩ := usable_or_refused resolve set
  · obtain ⟨plan, planned, watches, made⟩ := makeOn_of_fits provider usable room
    rw [made]
    refine ⟨iff_of_true ⟨_, rfl⟩ usable, fun fault => iff_of_false nofun ?_, rfl, ?_⟩
    · rintro ⟨e, -, refused⟩
      cases made.symm.trans (makeOn_of_refused provider options refused)
    · intro w same
      cases same
      exact ⟨planned, watches, rfl, rfl, rfl⟩
  · have made := makeOn_of_refused provider options refused
    rw [made]
    refine ⟨iff_of_false ?_ ?_, fun fault => ⟨?_, ?_⟩, rfl, ?_⟩
    · rintro ⟨w, same⟩
      cases same
    · intro usable
      obtain ⟨plan, -, -, other⟩ := makeOn_of_fits provider usable room
      cases made.symm.trans other
    · intro same
      cases same
      exact ⟨e, rfl, refused⟩
    · rintro ⟨e', rfl, again⟩
      exact congrArg Prod.snd (made.symm.trans (makeOn_of_refused provider options again))
    · intro w same
      cases same

/-- The record of an engine begins with the sharing that planning told of. -/
theorem history_of_makeOn {options : EngineOptions} {provider : Provider} {w : Engine}
    (made : (makeOn provider options resolve set).2 = .ok w) :
    w.shop.history = List.replicate (Planning.of resolve set).duplicates .shared := by
  rw [makeOn] at made
  split at made
  · cases made
  · split at made
    · cases made
    · rename_i plan planned
      split at made
      · cases made
      · cases made
        rw [← WatchPlan.shared_of planned]
        rfl

/-- An owner whose first selector does not resolve and whose second has two defects, between
one that declares nothing and one with a selector that has no resource. -/
def mixedDefects : InputSet :=
  .ofList [("gamma", [{ id := .core "v1" "" }]),
    ("beta", [{ id := .core "v1" "widgets" }, { id := .core "" "pods/log" }]), ("alpha", [])]

def usedProvider : Provider where
  failing := [(⟨"", "v1", "Secret"⟩, .cancelled)]
  opened := [⟨"", "v1", "Node"⟩]

theorem made_iff_usable_of_mixedDefects :
    Channel.maxCapacity = 2305843009213693951 ∧
    makeOn usedProvider { capacity := 0 } KindTable.builtin.resolve mixedDefects =
      (usedProvider, .error (.refused (.invalidInput
        (.unsupported "beta" { id := .core "" "pods/log" } .versionEmpty)))) ∧
    ∃ w, makeOn usedProvider { capacity := Channel.maxCapacity } KindTable.builtin.resolve
        .builtin = (usedProvider, .ok w) ∧
      w.plan.watches ≠ [] ∧ w.gate = .pending ∧ w.provider.opened = [⟨"", "v1", "Node"⟩] := by
  obtain ⟨-, why, left, -⟩ := made_iff_usable { capacity := 0 } (by decide) usedProvider
    KindTable.builtin.resolve mixedDefects
  obtain ⟨made, -, left', good⟩ := made_iff_usable { capacity := Channel.maxCapacity }
    (Nat.le_refl _) usedProvider KindTable.builtin.resolve .builtin
  have entries : mixedDefects.entries =
      [("beta", { id := .core "v1" "widgets" })] ++
        ("beta", { id := .core "" "pods/log" }) :: [("gamma", { id := .core "v1" "" })] := by
    decide +kernel
  have first : NamesDefect mixedDefects.entries
      (.unsupported "beta" { id := .core "" "pods/log" } .versionEmpty) :=
    ⟨_, _, _, _, _, entries, by decide +kernel, .versionEmpty (by decide) rfl, rfl⟩
  obtain ⟨w, same⟩ := made.2 (by decide +kernel)
  obtain ⟨-, watches, gate, provider, -⟩ := good w same
  exact ⟨by decide, Prod.ext left ((why _).2 ⟨_, rfl, .unsupported first⟩),
    w, Prod.ext left' same, watches, gate, by rw [provider]; rfl⟩

end Engine

end ResourceWatch
