import Mathlib.Data.List.Induction
import ResourceWatch.Proofs.Dispatch
import ResourceWatch.Proofs.Judging
import ResourceWatch.Proofs.Text.Bytes
import ResourceWatch.Proofs.Tracker.Replay

/-!
# What a full list no longer names

Deletions that nobody saw come to light when a full list ends: every object that was live,
and that the list has not named, is reported as deleted, in the order of the bytes of its
tracking text, and no other object is. Lists that were given up before do not count, and
neither do the objects that they named.

What is reported of such an object is the last state that was told of it, without its
payload. It still refers to the object as that state did, so whatever filters made of the
state, they make of the deletion.
-/

namespace ResourceWatch

/-- Whether a notification is the last one about an object. -/
def Latest (events : List StreamEvent) (key : String) (n : Notification) : Prop :=
  ∃ before after, events = before ++ .change n :: after ∧ n.key? = some key ∧
    ∀ n', .change n' ∈ after → n'.key? ≠ some key

def Notification.state? : Notification → Option Object
  | .added o | .updated o => some o
  | .deleted _ => none

/-- The state of its object that a report tells. -/
def WatchEvent.state? : WatchEvent → Option Object
  | .listed o | .applied o => some o
  | .listBegin | .deleted _ | .listEnd => none

/-- Whether an object is live after reports: its state was reported, and since then neither was
its deletion reported nor has a full list ended by which it was gone. -/
def Live (reports : List WatchEvent) (key : String) : Prop :=
  ∃ before e after o, reports = before ++ e :: after ∧ e.state? = some o ∧ o.key? = some key ∧
    (∀ gone, .deleted gone ∈ after → gone.key? ≠ some key) ∧
    ∀ lastKnown, .change (.deleted (.unseen key lastKnown)) ∉
      (Tracker.observeAll {} (before ++ [e])).tells after

/-- The verdict that a notification had got, had it told of another action. -/
def Verdict.onAction (a : Action) : Verdict → Verdict
  | .drop outcome => .drop outcome
  | .forward e => .forward { e with action := a }

/-- The text of the work queue for the object that changed. -/
def ChangeEvent.queueKey? (e : ChangeEvent) : Option String :=
  (ObjectKey.ofReference? e.reference).map ObjectKey.encode

section Latest

variable {p : Picture} {n : Notification} {o known : Object} {key : String}
  {events : List StreamEvent}

theorem Latest.cons (h : Latest events key n) (event : StreamEvent) :
    Latest (event :: events) key n := by
  obtain ⟨before, after, rfl, about, last⟩ := h
  exact ⟨event :: before, after, rfl, about, last⟩

/-- The picture shows of an object what the last notification about it leaves. -/
theorem painted_cases (p : Picture) (events : List StreamEvent) (key : String) :
    (painted p events key = p key ∧ ∀ n, .change n ∈ events → n.key? ≠ some key) ∨
      ∃ n, Latest events key n ∧ painted p events key = n.leaves? := by
  induction events generalizing p with
  | nil => exact .inl ⟨rfl, by simp⟩
  | cons event events ih =>
      cases event with
      | hydrated =>
          refine (ih p).imp ?_ fun ⟨n, latest, shown⟩ => ⟨n, latest.cons _, shown⟩
          exact fun ⟨shown, silent⟩ => ⟨shown, by simpa using silent⟩
      | change n =>
          obtain ⟨shown, silent⟩ | ⟨n', latest, shown⟩ := ih (n.paint p)
          · by_cases about : n.key? = some key
            · refine .inr ⟨n, ⟨[], events, rfl, about, silent⟩, ?_⟩
              exact shown.trans (paint_apply_self about)
            · refine .inl ⟨shown.trans (paint_apply_of_ne about), ?_⟩
              intro n' there
              obtain same | there := List.mem_cons.1 there
              · cases same
                exact about
              · exact silent n' there
          · exact .inr ⟨n', latest.cons _, shown⟩

/-- What is left of a state is shown as long as it is the last that was told. -/
theorem Notification.leaves?_eq_some : n.leaves? = some known ↔
    ∃ o, n.state? = some o ∧ known = o.remembered := by
  cases n <;> simp [leaves?, state?, Object.remembered, eq_comm]

/-- What the picture shows of an object is left of the last state that was told. -/
theorem latest_of_painted (shown : painted (fun _ => none) events key = some known) :
    ∃ n o, Latest events key n ∧ n.state? = some o ∧ known = o.remembered := by
  obtain ⟨same, -⟩ | ⟨n, latest, same⟩ := painted_cases (fun _ => none) events key
  · cases same.symm.trans shown
  · obtain ⟨o, told, left⟩ := Notification.leaves?_eq_some.1 (same.symm.trans shown)
    exact ⟨n, o, latest, told, left⟩

end Latest

namespace Tracker

variable {t : Tracker} {e : WatchEvent} {events : List WatchEvent} {o : Object} {key : String}

@[simp] theorem apply_listing (t : Tracker) (o : Object) : (t.apply o).1.listing = t.listing := by
  rw [apply]
  split <;> rfl

@[simp] theorem apply_hydrated (t : Tracker) (o : Object) :
    (t.apply o).1.hydrated = t.hydrated := by
  rw [apply]
  split <;> rfl

/-- The first end of a full list is told, and no other report is. -/
theorem observe_hydrated (t : Tracker) (e : WatchEvent) :
    (t.observe e).1.hydrated = (t.hydrated || decide (e = .listEnd)) := by
  cases e with
  | listBegin => simp [observe]
  | listEnd => simp [observe, close]
  | applied o => simp [observe]
  | listed o | deleted o => cases tracked : o.key? <;> simp [observe, tracked, mention, forget]

theorem hydrated_observeAll (t : Tracker) (events : List WatchEvent) :
    (t.observeAll events).hydrated = (t.hydrated || decide (.listEnd ∈ events)) := by
  induction events generalizing t with
  | nil => simp [observeAll]
  | cons e events ih =>
      refine (ih _).trans ?_
      rw [observe_hydrated, Bool.or_assoc, ← Bool.decide_or]
      simp [eq_comm]

theorem mem_mention (listing : t.listing.isSome = true) (k : String) :
    key ∈ (t.mention k).listing.getD [] ↔ key ∈ t.listing.getD [] ∨ k = key := by
  obtain ⟨names, listing⟩ := Option.isSome_iff_exists.1 listing
  simp only [mention, listing, Option.map_some, Option.getD_some]
  split
  next there =>
    rw [List.contains_iff_mem] at there
    exact ⟨.inl, fun h => h.elim id fun same => same ▸ there⟩
  next => simp [eq_comm]

/-- An open full list has named an object when a report of the list is about it. -/
theorem observe_named (listing : t.listing.isSome = true) (first : e ≠ .listBegin)
    (last : e ≠ .listEnd) : (t.observe e).1.listing.isSome = true ∧
      ∀ key, key ∈ (t.observe e).1.listing.getD [] ↔
        key ∈ t.listing.getD [] ∨ ∃ o, e = .listed o ∧ o.key? = some key := by
  cases e with
  | listBegin => exact absurd rfl first
  | listEnd => exact absurd rfl last
  | applied o => simp [observe, listing]
  | deleted o => cases tracked : o.key? <;> simp [observe, tracked, listing]
  | listed o =>
      cases tracked : o.key? with
      | none => simp [observe, tracked, listing]
      | some k =>
          refine ⟨by simpa [observe, tracked, mention] using listing, fun key => ?_⟩
          simp only [observe, tracked, Option.elim_some, apply_listing, mem_mention listing]
          simp [tracked]

theorem named_observeAll (listing : t.listing.isSome = true) (latest : .listBegin ∉ events)
    (opened : .listEnd ∉ events) :
    ∀ key, key ∈ (t.observeAll events).listing.getD [] ↔
      key ∈ t.listing.getD [] ∨ ∃ o, .listed o ∈ events ∧ o.key? = some key := by
  induction events generalizing t with
  | nil => simp [observeAll]
  | cons e events ih =>
      rw [List.mem_cons, not_or] at latest opened
      obtain ⟨still, named⟩ := observe_named listing (Ne.symm latest.1) (Ne.symm opened.1)
      intro key
      refine (ih still latest.2 opened.2 key).trans ?_
      simp only [named key, or_assoc, List.mem_cons, or_and_right, exists_or, eq_comm]

/-- Whether a report says that an object is there. -/
def Shown (e : WatchEvent) (key : String) : Prop := ∃ o, e.state? = some o ∧ o.key? = some key

/-- Whether a report says that an object is gone, or lets it be found gone. -/
def Gone (t : Tracker) (e : WatchEvent) (key : String) : Prop :=
  (∃ o, e = .deleted o ∧ o.key? = some key) ∨
    ∃ lastKnown, .change (.deleted (.unseen key lastKnown)) ∈ (t.observe e).2

theorem apply_known (t : Tracker) (o : Object) (key : String) :
    ((t.apply o).1.find? key).isSome = true ↔
      o.key? = some key ∨ (t.find? key).isSome = true := by
  rw [apply]
  cases tracked : o.key? with
  | none => simp
  | some k =>
      rw [find?_remember, Option.some.injEq]
      by_cases same : key = k
      · simp [same]
      · simp [if_neg same, Ne.symm same]

/-- The state of an object is never told as a deletion. -/
theorem apply_told (t : Tracker) (o : Object) (d : Deletion) : (t.apply o).2 ≠ .deleted d := by
  rw [apply]
  split
  · simp
  · dsimp only
    split <;> simp

/-- At the end of a full list what is missing is told as deletions that went unseen. -/
theorem mem_close {lastKnown : Option Object} :
    .change (.deleted (.unseen key lastKnown)) ∈ t.close.2 ↔
      ∃ o, (key, o) ∈ t.missing ∧ some o = lastKnown := by
  rw [close, List.mem_append]
  have mark : StreamEvent.change (.deleted (.unseen key lastKnown)) ∉
      if t.hydrated then [] else [StreamEvent.hydrated] := by
    split <;> simp
  rw [or_iff_left mark, List.mem_map]
  constructor
  · rintro ⟨⟨k, o⟩, there, told⟩
    cases told
    exact ⟨o, there, rfl⟩
  · rintro ⟨o, there, rfl⟩
    exact ⟨(key, o), there, rfl⟩

/-- An object is known after a report that says it is there, or if it was known before and
is not gone. -/
theorem Keyed.observe_known (h : t.Keyed) (e : WatchEvent) (key : String) :
    ((t.observe e).1.find? key).isSome = true ↔
      Shown e key ∨ (t.find? key).isSome = true ∧ ¬Gone t e key := by
  have state {t' : Tracker} {o : Object} (told : e.state? = some o)
      (same : t'.find? key = t.find? key) (observed : t.observe e = ((t'.apply o).1,
        [.change (t'.apply o).2])) : ((t.observe e).1.find? key).isSome = true ↔
      Shown e key ∨ (t.find? key).isSome = true ∧ ¬Gone t e key := by
    have stays : ¬Gone t e key := by
      rintro (⟨gone, rfl, -⟩ | ⟨lastKnown, there⟩)
      · cases told
      · rw [observed, List.mem_singleton] at there
        exact apply_told t' o _ (StreamEvent.change.inj there).symm
    rw [observed, apply_known, same, Shown, told]
    simp [stays]
  cases e with
  | listBegin => simp [Tracker.observe, Shown, WatchEvent.state?, Gone, find?]
  | applied o => exact state rfl rfl rfl
  | listed o =>
      have same : (o.key?.elim t t.mention).find? key = t.find? key := by cases o.key? <;> rfl
      exact state rfl same rfl
  | deleted o =>
      cases tracked : o.key? with
      | none => simp [Tracker.observe, tracked, Shown, WatchEvent.state?, Gone]
      | some k =>
          have gone : Gone t (.deleted o) key ↔ key = k := by
            simp [Gone, Tracker.observe, tracked, eq_comm]
          rw [observe_deleted t tracked, find?_forget, gone]
          split <;> simp [Shown, WatchEvent.state?, *]
  | listEnd =>
      obtain ⟨-, -, missing⟩ := h.missing
      have gone : Gone t .listEnd key ↔ key ∈ t.missing.map Prod.fst := by
        simp only [Gone, Tracker.observe, mem_close, List.mem_map, Prod.exists]
        simp
      show (t.close.1.find? key).isSome = true ↔ _
      rw [find?_close, gone, missing]
      by_cases named : key ∈ t.listing.getD []
      · simp [named, Shown, WatchEvent.state?]
      · cases t.find? key <;> simp [named, Shown, WatchEvent.state?]

theorem live_append_singleton {reports : List WatchEvent} :
    Live (reports ++ [e]) key ↔
      Shown e key ∨ Live reports key ∧ ¬Gone (observeAll {} reports) e key := by
  have tells_last (before : List WatchEvent) (e' : WatchEvent) (after : List WatchEvent) :
      (observeAll {} (before ++ [e'])).tells (after ++ [e]) =
        (observeAll {} (before ++ [e'])).tells after ++
          ((observeAll {} (before ++ e' :: after)).observe e).2 := by
    rw [tells_append]
    simp [tells, observeAll]
  constructor
  · rintro ⟨before, e', after, o, split, told, tracked, undeleted, seen⟩
    obtain ⟨-, rfl, rfl⟩ | ⟨rest, rfl, rfl⟩ := append_singleton_eq_append_cons.1 split
    · exact .inl ⟨o, told, tracked⟩
    · have kept : Live (before ++ e' :: rest) key := by
        refine ⟨before, e', rest, o, rfl, told, tracked, ?_, fun lastKnown there => ?_⟩
        · exact fun gone there => undeleted gone (List.mem_append_left _ there)
        · refine seen lastKnown ?_
          rw [tells_last]
          exact List.mem_append_left _ there
      refine .inr ⟨kept, ?_⟩
      rintro (⟨gone, rfl, named⟩ | ⟨lastKnown, there⟩)
      · exact undeleted gone (by simp) named
      · refine seen lastKnown ?_
        rw [tells_last]
        exact List.mem_append_right _ there
  · rintro (⟨o, told, tracked⟩ | ⟨⟨before, e', after, o, rfl, told, tracked, undeleted, seen⟩,
      stays⟩)
    · exact ⟨reports, e, [], o, rfl, told, tracked, by simp, by simp [tells]⟩
    · refine ⟨before, e', after ++ [e], o, by simp, told, tracked, ?_, fun lastKnown there => ?_⟩
      · intro gone there named
        obtain old | last := List.mem_append.1 there
        · exact undeleted gone old named
        · exact stays (.inl ⟨gone, (List.mem_singleton.1 last).symm, named⟩)
      · rw [tells_last] at there
        obtain old | last := List.mem_append.1 there
        · exact seen lastKnown old
        · exact stays (.inr ⟨lastKnown, last⟩)

theorem live_iff_known (reports : List WatchEvent) :
    Live reports key ↔ ((Tracker.observeAll {} reports).find? key).isSome = true := by
  induction reports using List.reverseRecOn with
  | nil => simp [Live, observeAll, find?]
  | append_singleton reports e ih =>
      have after : observeAll {} (reports ++ [e]) = ((observeAll {} reports).observe e).1 := by
        simp [observeAll]
      rw [live_append_singleton, ih, after, (Keyed.empty.observeAll reports).1.observe_known]

/-- What a full list does not name is put in the order of its tracking texts. -/
theorem Keyed.missing_sorted (h : t.Keyed) :
    t.missing.Pairwise fun a b => octets a.1 < octets b.1 := by
  have sorted : t.missing.Pairwise fun a b => decide (a.1 ≤ b.1) = true := by
    refine List.pairwise_mergeSort ?_ ?_ _
    · intro a b c first second
      simp only [decide_eq_true_eq] at first second ⊢
      exact le_trans first second
    · intro a b
      simpa using le_total a.1 b.1
  refine (sorted.and (List.pairwise_map.1 h.missing.1)).imp ?_
  rintro a b ⟨le, ne⟩
  exact octets_lt.2 (lt_of_le_of_ne (of_decide_eq_true le) ne)

end Tracker

/-- Whether the filters pass a notification on, for this owner and under this text of the
work queue. -/
def FilterTable.Passes (table : FilterTable) (gvk : Gvk) (n : Notification)
    (owner queueKey : String) : Prop :=
  ∃ e, (table.judge gvk n).1 = .forward e ∧ e.owner = owner ∧ e.queueKey? = some queueKey

section Standing

variable {n : Notification} {o : Object} {key : String} {table : FilterTable} {gvk : Gvk}

theorem Notification.object?_of_state? (told : n.state? = some o) : n.object? = some o := by
  cases n with
  | added | updated => exact told
  | deleted => cases told

/-- What is left of a state refers to the object as the state did. -/
theorem reference_remembered (told : n.state? = some o) (key : String) (kind : Option Gvk) :
    (Notification.deleted (.unseen key (some o.remembered))).reference kind =
      n.reference kind := by
  have same : Reference.ofObject? o.remembered kind = Reference.ofObject? o kind := rfl
  cases n with
  | added | updated =>
      obtain rfl := Option.some.inj told
      simp only [Notification.reference, same]
  | deleted => cases told

/-- Whatever filters make of a state, they make of the deletion of what is left of it. -/
theorem judge_remembered (told : n.state? = some o) (tracked : o.key? = some key) :
    (table.judge gvk (.deleted (.unseen key (some o.remembered)))).1 =
      (table.judge gvk n).1.onAction .deleted := by
  obtain ⟨name, named, -⟩ := Option.map_eq_some_iff.1 tracked
  rw [FilterTable.judge_of_named (Notification.object?_of_state? told) named,
    FilterTable.judge_of_named (o := o.remembered) rfl named]
  split
  next => rfl
  next =>
    have text : o.remembered.nsText = o.nsText := rfl
    rw [text]
    cases (table.filtersOf gvk).find? (·.selector.selects o.nsText name) <;> rfl

/-- Notifications that are judged alike are passed on for the same owners. -/
theorem passes_iff_of_onAction {d : Notification} {a : Action}
    (alike : (table.judge gvk d).1 = (table.judge gvk n).1.onAction a) (owner queueKey : String) :
    table.Passes gvk d owner queueKey ↔ table.Passes gvk n owner queueKey := by
  rw [FilterTable.Passes, FilterTable.Passes, alike]
  cases (table.judge gvk n).1 with
  | drop => simp [Verdict.onAction]
  | forward e => simp [Verdict.onAction, ChangeEvent.queueKey?]

/-- Where a change goes: to an owner, under a text of the work queue. -/
def ChangeEvent.target (e : ChangeEvent) : String × Option String := (e.owner, e.queueKey?)

/-- Calls that hand over notifications that are judged alike end alike, and pass on changes
of the same object to the same owner. -/
theorem DispatchWorld.ended_alike {capacity : Nat} {past : Past DispatchWorld Command}
    {w : DispatchWorld} (run : conduct.Run (start table capacity) past w)
    (unclosed : w.channel.closed = false) {d : Notification} {a : Action}
    (alike : (table.judge gvk d).1 = (table.judge gvk n).1.onAction a) {i j : TaskId}
    {outcome outcome' : DispatchOutcome} (first : (calls past)[i]? = some (gvk, n))
    (second : (calls past)[j]? = some (gvk, d)) (ended : w.tasks[i]? = some (.ended outcome))
    (ended' : w.tasks[j]? = some (.ended outcome')) :
    outcome = outcome' ∧
      (putBy i past).map ChangeEvent.target = (putBy j past).map ChangeEvent.target := by
  have orderly := orderly_of_run run unclosed
  have fate := orderly.fates i gvk n first
  have fate' := orderly.fates j gvk d second
  cases fate with
  | fresh task | sending _ task => cases task.symm.trans ended
  | dropped _ task judged nothing =>
      rw [judged] at alike
      cases fate' with
      | fresh task' | sending _ task' => cases task'.symm.trans ended'
      | passed _ _ judged' => cases judged'.symm.trans alike
      | dropped _ task' judged' nothing' =>
          cases task.symm.trans ended
          cases task'.symm.trans ended'
          cases judged'.symm.trans alike
          exact ⟨rfl, by rw [nothing, nothing']⟩
  | passed e task judged once =>
      rw [judged] at alike
      cases fate' with
      | fresh task' | sending _ task' => cases task'.symm.trans ended'
      | dropped _ _ judged' => cases judged'.symm.trans alike
      | passed _ task' judged' once' =>
          cases task.symm.trans ended
          cases task'.symm.trans ended'
          cases judged'.symm.trans alike
          exact ⟨rfl, by rw [once, once']; rfl⟩

end Standing

/-- A deletion that stands for the object of a state. -/
structure StandsFor (d n : Notification) (key : String) : Prop where
  /-- Both refer to the same object, and `key` is its tracking text. -/
  reference : ∀ kind, ∃ r, n.reference kind = .ok r ∧ d.reference kind = .ok r ∧
    r.joinedName = key
  /-- Filters pass on both or none, for the same owner and under the same text of the
  work queue. -/
  passed : ∀ (table : FilterTable) gvk owner queueKey,
    table.Passes gvk d owner queueKey ↔ table.Passes gvk n owner queueKey
  /-- A dispatcher whose channel is open answers both alike, and its channel gets changes
  for the same owner and under the same text from both or from none. -/
  handled : ∀ table capacity past w,
    DispatchWorld.conduct.Run (DispatchWorld.start table capacity) past w →
      w.channel.closed = false → ∀ gvk i j outcome outcome',
        (DispatchWorld.calls past)[i]? = some (gvk, n) →
        (DispatchWorld.calls past)[j]? = some (gvk, d) →
        w.tasks[i]? = some (.ended outcome) → w.tasks[j]? = some (.ended outcome') →
          outcome = outcome' ∧ (DispatchWorld.putBy i past).map ChangeEvent.target =
            (DispatchWorld.putBy j past).map ChangeEvent.target

/-- What is left of a state stands for its object once the object is gone. -/
theorem standsFor_of_state? {n : Notification} {o : Object} {key : String}
    (told : n.state? = some o) (tracked : o.key? = some key) :
    StandsFor (.deleted (.unseen key (some o.remembered))) n key := by
  refine ⟨?_, ?_, ?_⟩
  · intro kind
    obtain ⟨name, named, joined⟩ := Option.map_eq_some_iff.1 tracked
    let r : Reference := {
      kind := kind <|> o.types.bind fun t => Gvk.ofTypeWords? t.apiVersion t.kind
      ns := o.nsText
      name := name
      uid := o.metadata.uid
      resourceVersion := o.metadata.resourceVersion }
    have refers : Reference.ofObject? o kind = some r := by
      rw [Reference.ofObject?, named]
      rfl
    have ok : n.reference kind = .ok r := Notification.reference_eq_ok_iff_ofObject?.2
      ⟨o, Notification.object?_of_state? told, refers⟩
    exact ⟨r, ok, (reference_remembered told key kind).trans ok, joined⟩
  · intro table gvk owner queueKey
    exact passes_iff_of_onAction (judge_remembered told tracked) owner queueKey
  · intro table capacity past w run unclosed gvk i j outcome outcome' first second ended ended'
    exact DispatchWorld.ended_alike run unclosed (judge_remembered told tracked) first second
      ended ended'

/-- What the end of a full list says is gone: the list began after `earlier`, and `since`
was reported before it ended. -/
structure Relisted (earlier since : List WatchEvent) (gone : List (String × Object)) : Prop where
  /-- One deletion is told of each object that is gone, and nothing else but that the first
  full list is complete. -/
  told : ((Tracker.observeAll {} (earlier ++ .listBegin :: since)).observe .listEnd).2 =
    gone.map (fun (key, o) => .change (.deleted (.unseen key (some o)))) ++
      if .listEnd ∈ earlier then [] else [.hydrated]
  /-- The deletions come in the order of the bytes of the tracking texts. -/
  sorted : gone.Pairwise fun a b => octets a.1 < octets b.1
  /-- Gone is what was live and what the list has not named. -/
  exact : ∀ key, key ∈ gone.map Prod.fst ↔
    Live (earlier ++ .listBegin :: since) key ∧
      ∀ o, .listed o ∈ since → o.key? ≠ some key
  /-- Each deletion stands for the object of the last state that was told of it. -/
  stands : ∀ key lastKnown, (key, lastKnown) ∈ gone → ∃ n o, n.state? = some o ∧
    Latest (Tracker.tells {} (earlier ++ .listBegin :: since)) key n ∧
      StandsFor (.deleted (.unseen key (some lastKnown))) n key

/-- The end of an open full list, which is the one that began last, tells of every object
that is gone and of no other. -/
theorem relisted_of_open (earlier since : List WatchEvent) (latest : .listBegin ∉ since)
    (opened : .listEnd ∉ since) : ∃ gone, Relisted earlier since gone := by
  let before := earlier ++ .listBegin :: since
  let t := Tracker.observeAll {} before
  obtain ⟨keyed, -, shown⟩ := Tracker.Keyed.empty.observeAll before
  obtain ⟨-, known, missing⟩ : (t.missing.map Prod.fst).Nodup ∧ _ := keyed.missing
  have pictured (key : String) :
      painted (fun _ => none) (Tracker.tells {} before) key = t.find? key := congrFun shown key
  -- The list began with nothing named, and every report since then belongs to it.
  have split : t = ((Tracker.observeAll {} earlier).observe .listBegin).1.observeAll since := by
    simp [t, before, Tracker.observeAll]
  have named (key : String) : key ∈ t.listing.getD [] ↔
      ∃ o, .listed o ∈ since ∧ o.key? = some key := by
    rw [split, Tracker.named_observeAll rfl latest opened]
    simp [Tracker.observe]
  have hydrated : t.hydrated = decide (.listEnd ∈ earlier) := by
    rw [Tracker.hydrated_observeAll]
    simp [before, opened]
  refine ⟨t.missing, ?_, keyed.missing_sorted, ?_, ?_⟩
  · show t.close.2 = _
    rw [Tracker.close, hydrated]
    simp only [decide_eq_true_eq]
  · intro key
    rw [Tracker.live_iff_known, missing, named]
    push Not
    rfl
  · intro key lastKnown gone
    have found : t.find? key = some lastKnown := known _ gone
    obtain ⟨n, o, latest, told, rfl⟩ := latest_of_painted ((pictured key).trans found)
    have tracked : o.key? = some key :=
      keyed.own _ (List.mem_of_mem_filter (List.mem_mergeSort.1 gone))
    exact ⟨n, o, told, latest, standsFor_of_state? told tracked⟩

/-- An object with a name, a payload and a record of two field managers. -/
def laden (name : String) : Object where
  metadata := { name := some name, ns := some "default", uid := some name, managers := 2 }
  data := .str "payload"

/-- Two lists that were given up, after one named three objects and the other one. -/
def abandoned : List WatchEvent :=
  [.listBegin, .listed (laden "a"), .listed (laden "Z"), .listed (laden "b"),
    .listBegin, .listed (laden "a")]

/-- What the next list names before it ends. -/
def renewed : List WatchEvent := [.listed (laden "b")]

/-- The first list that ends names a single object: two of three are gone, also the one that
the list before had named. -/
theorem relisted_of_abandoned :
    .listBegin ∉ renewed ∧ .listEnd ∉ renewed ∧
      ((Tracker.observeAll {} (abandoned ++ .listBegin :: renewed)).observe .listEnd).2 =
        [.change (.deleted (.unseen "default/Z" (some (laden "Z").remembered))),
          .change (.deleted (.unseen "default/a" (some (laden "a").remembered))),
          .hydrated] ∧
      ∃ gone, Relisted abandoned renewed gone := by
  have state : Tracker.observeAll {} (abandoned ++ .listBegin :: renewed) =
      { known := ["b", "a", "Z"].map fun name => ("default/" ++ name, (laden name).remembered),
        listing := some ["default/b"] } := by decide
  have missing : (Tracker.observeAll {} (abandoned ++ .listBegin :: renewed)).missing =
      ["Z", "a"].map fun name => ("default/" ++ name, (laden name).remembered) := by
    rw [state]
    simp [Tracker.missing, List.mergeSort, List.MergeSort.Internal.splitInTwo]
  refine ⟨by decide, by decide, ?_, relisted_of_open _ _ (by decide) (by decide)⟩
  show (Tracker.close _).2 = _
  rw [Tracker.close, missing, state]
  rfl

end ResourceWatch
