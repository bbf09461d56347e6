import Mathlib.Data.Set.Defs
import ResourceWatch.Proofs.Engine.Freshness
import ResourceWatch.Proofs.Judging
import ResourceWatch.Proofs.Planning

/-!
# Changes mirror the store

The reports on a kind change its store and go through its tracker, and the filters
of the kind judge what the tracker makes of them. The tracker and the store keep
their own lists of what there is: an open full list leaves marks in one and is
gathered on the side in the other.

Whenever no full list is open, though, the changes that were passed on tell which
objects the store holds, of those that the filters take: exactly the ones whose last
change was not a deletion. This does not depend on how often full lists were begun,
given up and begun again.
-/

namespace ResourceWatch

def lastChange? (changes : List ChangeEvent) (ns name : String) : Option ChangeEvent :=
  (changes.filter fun e => e.reference.ns == ns && e.reference.name == name).getLast?

/-- The namespaces and names of the objects that there are, going by changes: those
whose last change is not a deletion. -/
def standing (changes : List ChangeEvent) : Set (String × String) :=
  {place | ∃ e, lastChange? changes place.1 place.2 = some e ∧ e.action ≠ .deleted}

/-- The namespaces and names of the objects in a store that some filter takes. -/
def Store.selected (s : Store) (filters : List Filter) : Set (String × String) :=
  {place | (∃ entry ∈ s.objects, entry.2.Is place.1 place.2) ∧
    ∃ f ∈ filters, f.selector.selects place.1 place.2 = true}

/-- The change that the filters of a kind make of an event, if it is to be passed on. -/
def FilterTable.passes? (table : FilterTable) (gvk : Gvk) : StreamEvent → Option ChangeEvent
  | .change n =>
    match (table.judge gvk n).1 with
    | .forward e => some e
    | .drop _ => none
  | .hydrated => none

/-- A kind with its store and its tracker, and the changes that were passed on. -/
structure Mirror where
  /-- The objects of the kind. -/
  store : Store := {}
  /-- What is known of the objects of the kind. -/
  tracker : Tracker := {}
  /-- What was passed on, the oldest first. -/
  changes : List ChangeEvent := []

namespace Mirror

/-- A report changes the store and is taken in by the tracker. What the tracker makes of it
is judged by the filters of the kind, and every change that they let through is accepted. -/
def take (table : FilterTable) (gvk : Gvk) (m : Mirror) (e : WatchEvent) : Mirror :=
  ⟨m.store.apply e, (m.tracker.observe e).1,
    m.changes ++ (m.tracker.observe e).2.filterMap (table.passes? gvk)⟩

/-- A kind after the reports on it, all of whose changes were accepted. -/
def after (table : FilterTable) (gvk : Gvk) (events : List WatchEvent) : Mirror :=
  events.foldl (take table gvk) {}

end Mirror

/-- Whether a notification carries an object of this name and namespace. -/
def Notification.tellsOf (ns name : String) (n : Notification) : Bool :=
  n.object?.any fun o => o.nsText == ns && o.name? == some name

/-- What the events of a stream tell of an object, in their order. -/
def told (ns name : String) (events : List StreamEvent) : List Action :=
  events.filterMap fun
    | .change n => if n.tellsOf ns name then some n.action else none
    | .hydrated => none

/-- What changes say was done to an object, in their order. -/
def actionsOn (ns name : String) (changes : List ChangeEvent) : List Action :=
  (changes.filter fun e => e.reference.ns == ns && e.reference.name == name).map (·.action)

theorem mem_standing {changes : List ChangeEvent} {ns name : String} :
    (ns, name) ∈ standing changes ↔
      ∃ a, (actionsOn ns name changes).getLast? = some a ∧ a ≠ .deleted := by
  show (∃ e, lastChange? changes ns name = some e ∧ e.action ≠ .deleted) ↔ _
  rw [actionsOn, List.getLast?_map, ← lastChange?]
  cases lastChange? changes ns name <;> simp

section Telling

variable {ns name ns' name' : String} {n : Notification} {o : Object}

theorem Object.Is.iff (own : o.Is ns name) : o.Is ns' name' ↔ ns = ns' ∧ name = name' := by
  rw [Is, own.1, own.2, Option.some.injEq]

theorem Object.Is.plainName (own : o.Is ns name) (plain : o.isPlain = true) :
    PlainName ns name := by
  obtain ⟨ns', name', good, own', -⟩ := exists_of_isPlain plain
  obtain ⟨rfl, rfl⟩ := own'.iff.1 own
  exact good

theorem Notification.tellsOf_iff (carries : n.object? = some o) :
    n.tellsOf ns name = true ↔ o.Is ns name := by
  simp [tellsOf, carries, Object.Is]

theorem told_append (events events' : List StreamEvent) :
    told ns name (events ++ events') = told ns name events ++ told ns name events' :=
  List.filterMap_append

theorem told_change (n : Notification) :
    told ns name [.change n] = if n.tellsOf ns name then [n.action] else [] := by
  cases tells : n.tellsOf ns name <;> simp [told, tells]

theorem mem_told {events : List StreamEvent} {a : Action} :
    a ∈ told ns name events ↔
      ∃ n, .change n ∈ events ∧ n.tellsOf ns name = true ∧ n.action = a := by
  rw [told, List.mem_filterMap]
  constructor
  · rintro ⟨event, there, tells⟩
    cases event with
    | hydrated => cases tells
    | change n => exact ⟨n, there, by simpa using tells⟩
  · rintro ⟨n, there, tells, rfl⟩
    exact ⟨.change n, there, by simp [tells]⟩

end Telling

section Changes

variable {table : FilterTable} {gvk : Gvk} {ns name : String}

/-- What is passed on is the change that the event amounts to. -/
theorem FilterTable.passes?_eq_event? (event : StreamEvent) :
    table.passes? gvk event = table.event? gvk (.ok event) := by
  cases event with
  | hydrated => rfl
  | change n =>
      rw [event?_change, passes?]
      cases (table.judge gvk n).1 <;> rfl

/-- A change that is passed on is about the object that the event carries, which some
filter takes. -/
theorem FilterTable.of_passes? {event : StreamEvent} {e : ChangeEvent}
    (change : table.passes? gvk event = some e) :
    ∃ n o, event = .change n ∧ n.object? = some o ∧ o.Is e.reference.ns e.reference.name ∧
      e.action = n.action ∧
      ∃ f ∈ table.filtersOf gvk, f.selector.selects e.reference.ns e.reference.name = true := by
  rw [passes?_eq_event?] at change
  cases event with
  | hydrated => cases change
  | change n =>
      simp only [event?, Option.bind_eq_bind, Option.bind_eq_some_iff, Option.pure_def,
        Option.some.injEq] at change
      obtain ⟨r, refers, f, found, rfl⟩ := change
      cases read : n.reference (some gvk) with
      | error fault => simp [read, Except.toOption] at refers
      | ok r' =>
          obtain rfl : r' = r := by simpa [read, Except.toOption] using refers
          obtain ⟨o, name, carries, named, rfl⟩ := Notification.reference_eq_ok_iff.1 read
          have takes := List.find?_some found
          exact ⟨n, o, rfl, carries, ⟨rfl, named⟩, rfl, f, List.mem_of_find?_eq_some found, takes⟩

/-- What is passed on about an object that some filter takes is all that the stream
tells of it. -/
theorem actionsOn_eq_told (selected : ∃ f ∈ table.filtersOf gvk, f.selector.selects ns name = true)
    (events : List StreamEvent) :
    actionsOn ns name (events.filterMap (table.passes? gvk)) = told ns name events := by
  induction events with
  | nil => rfl
  | cons event events ih =>
      rw [List.filterMap_cons, ← List.singleton_append, told_append, ← ih]
      cases change : table.passes? gvk event with
      | none =>
          -- the object that the event carries, if any, is another one
          suffices none : told ns name [event] = [] by simp [none]
          cases event with
          | hydrated => rfl
          | change n =>
              by_contra tells
              cases carries : n.object? with
              | none => simp [told, Notification.tellsOf, carries] at tells
              | some o =>
                  rw [told_change] at tells
                  simp only [ite_eq_right_iff, not_forall] at tells
                  have own := (Notification.tellsOf_iff carries).1 tells.1
                  obtain ⟨e, passed, -⟩ := FilterTable.event?_of_is carries own selected
                  rw [← FilterTable.passes?_eq_event?, change] at passed
                  cases passed
      | some e =>
          obtain ⟨n, o, rfl, carries, own, action, -⟩ := FilterTable.of_passes? change
          have same : n.tellsOf ns name = (e.reference.ns == ns && e.reference.name == name) := by
            rw [Bool.eq_iff_iff, Notification.tellsOf_iff carries, own.iff]
            simp
          rw [told_change, same]
          by_cases here : (e.reference.ns == ns && e.reference.name == name) = true
          · simp [actionsOn, here, action]
          · simp [actionsOn, here]

end Changes

namespace Tracker

variable {t : Tracker} {e : WatchEvent} {ns name : String}

/-- Every object that is known is tracked under its own text. -/
def Tidy (t : Tracker) : Prop :=
  ∀ entry ∈ t.known, entry.2.isPlain = true ∧ entry.2.key? = some entry.1

theorem Tidy.remember (h : t.Tidy) {o : Object} {k : String} (plain : o.isPlain = true)
    (tracked : o.key? = some k) : (t.remember k o.remembered).Tidy := by
  intro entry there
  obtain rfl | there := List.mem_cons.1 there
  · exact ⟨plain, tracked⟩
  · exact h entry (List.mem_of_mem_filter there)

/-- A report on a named object keeps it so. -/
theorem Tidy.observe (h : t.Tidy) (fits : e.fits t.listing.isSome = true) :
    (t.observe e).1.Tidy := by
  have tracked {o : Object} (plain : o.isPlain = true) : ∃ k, o.key? = some k :=
    let ⟨_, _, _, _, _, k⟩ := Object.exists_of_isPlain plain
    ⟨_, k⟩
  cases e with
  | listBegin => exact h
  | listed o =>
      simp only [WatchEvent.fits, Bool.and_eq_true] at fits
      obtain ⟨k, key⟩ := tracked fits.2
      rw [t.observe_listed key]
      exact Tidy.remember (t := t.mention k) h fits.2 key
  | listEnd => exact fun entry there => h entry (List.mem_of_mem_filter there)
  | applied o =>
      simp only [WatchEvent.fits, Bool.and_eq_true] at fits
      obtain ⟨k, key⟩ := tracked fits.2
      rw [t.observe_applied key]
      exact h.remember fits.2 key
  | deleted o =>
      simp only [WatchEvent.fits, Bool.and_eq_true] at fits
      obtain ⟨k, key⟩ := tracked fits.2
      rw [t.observe_deleted key]
      exact fun entry there => h entry (List.mem_of_mem_filter there)

/-- What a report amounts to is about named objects. -/
theorem Tidy.isPlain_of_change (h : t.Tidy) (fits : e.fits t.listing.isSome = true)
    {n : Notification} {o : Object} (there : .change n ∈ (t.observe e).2)
    (carries : n.object? = some o) : o.isPlain = true := by
  have taken {o' : Object} (t' : Tracker) (plain : o'.isPlain = true)
      (there : StreamEvent.change n ∈ [.change (t'.apply o').2]) : o.isPlain = true := by
    obtain ⟨_, _, -, -, -, tracked⟩ := Object.exists_of_isPlain plain
    cases List.mem_singleton.1 there
    obtain rfl := Option.some.inj ((t'.apply_of_key tracked).2.symm.trans carries)
    exact plain
  cases e with
  | listBegin => cases there
  | listed o' =>
      simp only [WatchEvent.fits, Bool.and_eq_true] at fits
      exact taken _ fits.2 there
  | applied o' =>
      simp only [WatchEvent.fits, Bool.and_eq_true] at fits
      exact taken t fits.2 there
  | deleted o' =>
      simp only [WatchEvent.fits, Bool.and_eq_true] at fits
      cases List.mem_singleton.1 there
      cases carries
      exact fits.2
  | listEnd =>
      obtain there | there := List.mem_append.1 there
      · obtain ⟨entry, missing, same⟩ := List.mem_map.1 there
        cases same
        cases carries
        exact (h entry (List.mem_filter.1 (List.mem_mergeSort.1 missing)).1).1
      · split at there <;> simp at there

theorem apply_action (t : Tracker) (o : Object) : (t.apply o).2.action ≠ .deleted := by
  rw [apply]
  split
  · simp [Notification.action]
  · dsimp only
    split <;> simp [Notification.action]

theorem find?_of_mem {entry : String × Object} (there : entry ∈ t.known) :
    (t.find? entry.1).isSome = true := by
  rw [find?]
  rw [Option.isSome_map, List.find?_isSome]
  exact ⟨entry, there, by simp⟩

/-- The end of a full list tells of an object that it is deleted if it was known and the
list did not name it. Otherwise it tells nothing of it. -/
theorem told_close (h : t.Tidy) (good : PlainName ns name) (a : Action) :
    a ∈ told ns name t.close.2 ↔ a = .deleted ∧
      (t.find? (joinedName ns name)).isSome = true ∧ joinedName ns name ∉ t.listing.getD [] := by
  rw [mem_told]
  constructor
  · rintro ⟨n, there, tells, rfl⟩
    obtain there | there := List.mem_append.1 there
    · obtain ⟨⟨k, o⟩, missing, same⟩ := List.mem_map.1 there
      obtain ⟨known, out⟩ := List.mem_filter.1 (List.mem_mergeSort.1 missing)
      cases same
      have own := (Notification.tellsOf_iff rfl).1 tells
      have key := (Object.key?_eq_joinedName (h _ known).1 good).2 own
      obtain rfl : k = joinedName ns name := Option.some.inj ((h _ known).2.symm.trans key)
      exact ⟨rfl, find?_of_mem known, by simpa using out⟩
    · split at there <;> simp at there
  · rintro ⟨rfl, known, out⟩
    obtain ⟨o, known⟩ := Option.isSome_iff_exists.1 known
    obtain ⟨entry, found, rfl⟩ := Option.map_eq_some_iff.1 known
    have own : entry.2.Is ns name := by
      have tidy := h entry (List.mem_of_find?_eq_some found)
      have same : entry.1 = joinedName ns name := by simpa using List.find?_some found
      exact (Object.key?_eq_joinedName tidy.1 good).1 (same ▸ tidy.2)
    exact ⟨_, announced_of_missing known out, (Notification.tellsOf_iff rfl).2 own, rfl⟩

/-- What is told of an object agrees with what becomes of it: if nothing is told, it
stays known or unknown, and otherwise the last that is told is a deletion exactly if it
is not known from then on. -/
def Agrees (ns name : String) (t t' : Tracker) (events : List StreamEvent) : Prop :=
  (told ns name events = [] ∧
    (t'.find? (joinedName ns name)).isSome = (t.find? (joinedName ns name)).isSome) ∨
  ∃ a, (told ns name events).getLast? = some a ∧
    (a ≠ .deleted ↔ (t'.find? (joinedName ns name)).isSome = true)

/-- A change of one object agrees with a tracker that changes for this object only. -/
theorem agrees_change {t' : Tracker} {o : Object} {n : Notification} (good : PlainName ns name)
    (plain : o.isPlain = true) (carries : n.object? = some o)
    (becomes : ∀ key, o.key? = some key → (n.action ≠ .deleted ↔ (t'.find? key).isSome = true))
    (stays : ∀ key, o.key? ≠ some key → t'.find? key = t.find? key) :
    Agrees ns name t t' [.change n] := by
  rw [Agrees, told_change]
  by_cases own : o.Is ns name
  · rw [if_pos ((Notification.tellsOf_iff carries).2 own)]
    exact .inr ⟨n.action, rfl, becomes _ ((Object.key?_eq_joinedName plain good).2 own)⟩
  · rw [if_neg (mt (Notification.tellsOf_iff carries).1 own)]
    exact .inl ⟨rfl, by rw [stays _ (mt (Object.key?_eq_joinedName plain good).1 own)]⟩

/-- What a report amounts to agrees with what becomes of the tracker. -/
theorem agrees_observe (h : t.Tidy) (fits : e.fits t.listing.isSome = true)
    (good : PlainName ns name) : Agrees ns name t (t.observe e).1 (t.observe e).2 := by
  have taken {o : Object} (plain : o.isPlain = true) (t' : Tracker)
      (known : ∀ key, t'.find? key = t.find? key) :
      Agrees ns name t (t'.apply o).1 [.change (t'.apply o).2] := by
    obtain ⟨_, _, -, -, -, tracked⟩ := Object.exists_of_isPlain plain
    obtain ⟨after, carries⟩ := t'.apply_of_key tracked
    refine agrees_change good plain carries ?_ ?_
    · rintro key same
      obtain rfl := Option.some.inj (tracked.symm.trans same)
      simp [after, find?_remember, apply_action]
    · intro key other
      rw [after, find?_remember, if_neg (by rintro rfl; exact other tracked), known]
  cases e with
  | listBegin => exact .inl ⟨rfl, rfl⟩
  | listed o =>
      simp only [WatchEvent.fits, Bool.and_eq_true] at fits
      exact taken fits.2 _ fun key => by cases o.key? <;> rfl
  | applied o =>
      simp only [WatchEvent.fits, Bool.and_eq_true] at fits
      exact taken fits.2 t fun _ => rfl
  | deleted o =>
      simp only [WatchEvent.fits, Bool.and_eq_true] at fits
      obtain ⟨_, _, -, -, -, tracked⟩ := Object.exists_of_isPlain fits.2
      refine agrees_change good fits.2 rfl ?_ ?_
      · rintro key same
        obtain rfl := Option.some.inj (tracked.symm.trans same)
        simp [t.observe_deleted tracked, find?_forget, Notification.action]
      · intro key other
        rw [t.observe_deleted tracked, find?_forget, if_neg (by rintro rfl; exact other tracked)]
  | listEnd =>
      have left := t.find?_close (joinedName ns name)
      have tells := told_close h good
      show Agrees ns name t t.close.1 t.close.2
      by_cases gone : (t.find? (joinedName ns name)).isSome = true ∧
          joinedName ns name ∉ t.listing.getD []
      · have there := (tells .deleted).2 ⟨rfl, gone⟩
        obtain ⟨a, last⟩ := Option.isSome_iff_exists.1
          (List.getLast?_isSome.2 (List.ne_nil_of_mem there))
        obtain rfl := ((tells a).1 (List.mem_of_getLast? last)).1
        exact .inr ⟨_, last, by simp [left, gone.2]⟩
      · refine .inl ⟨List.eq_nil_iff_forall_not_mem.2 fun a there => gone ((tells a).1 there).2, ?_⟩
        rw [left]
        split
        next => rfl
        next out =>
          simp only [out, not_false_eq_true, and_true, Bool.not_eq_true] at gone
          simp [gone]

end Tracker

namespace Store

variable {s : Store} {e : WatchEvent} {ns name : String}

/-- Every object of a store stands at its own place. -/
def Tidy (s : Store) : Prop :=
  ∀ entry, entry ∈ s.objects ∨ entry ∈ s.gathered →
    entry.1 = StoreKey.of entry.2 ∧ entry.2.isPlain = true

/-- A report on a named object keeps it so. -/
theorem Tidy.apply (h : s.Tidy) {listing : Bool} (fits : e.fits listing = true) :
    (s.apply e).Tidy := by
  have put {o : Object} {entries : List (StoreKey × Object)} {entry : StoreKey × Object}
      (there : entry ∈ Store.put o entries) : entry = (StoreKey.of o, o) ∨ entry ∈ entries :=
    (List.mem_cons.1 there).imp id List.mem_of_mem_filter
  intro entry there
  cases e with
  | listBegin => exact h entry (there.imp id (by simp [Store.apply]))
  | listEnd => exact h entry (.inr (there.elim id (by simp [Store.apply])))
  | listed o =>
      simp only [WatchEvent.fits, Bool.and_eq_true] at fits
      obtain there | there := there
      · exact h entry (.inl there)
      · obtain rfl | there := put there
        · exact ⟨rfl, fits.2⟩
        · exact h entry (.inr there)
  | applied o =>
      simp only [WatchEvent.fits, Bool.and_eq_true] at fits
      obtain there | there := there
      · obtain rfl | there := put there
        · exact ⟨rfl, fits.2⟩
        · exact h entry (.inl there)
      · exact h entry (.inr there)
  | deleted o => exact h entry (there.imp List.mem_of_mem_filter id)

/-- An object is in a tidy store exactly if something is found at its place. -/
theorem Tidy.at?_isSome (h : s.Tidy) :
    (s.at? (.at ns name)).isSome = true ↔ ∃ entry ∈ s.objects, entry.2.Is ns name := by
  rw [at?, Option.isSome_map, List.find?_isSome]
  refine exists_congr fun entry => and_congr_right fun there => ?_
  obtain ⟨place, plain⟩ := h entry (.inl there)
  rw [beq_iff_eq, place, Object.of_eq_at plain]

end Store

namespace Mirror

variable {table : FilterTable} {gvk : Gvk} {m : Mirror} {e : WatchEvent} {ns name : String}

/-- What is kept is about named objects, and what was passed on is about such that some
filter takes. -/
structure Tidy (table : FilterTable) (gvk : Gvk) (m : Mirror) : Prop where
  tracker : m.tracker.Tidy
  store : m.store.Tidy
  changes : ∀ e ∈ m.changes, PlainName e.reference.ns e.reference.name ∧
    ∃ f ∈ table.filtersOf gvk, f.selector.selects e.reference.ns e.reference.name = true

theorem Tidy.empty (table : FilterTable) (gvk : Gvk) : Tidy table gvk {} := by
  refine ⟨?_, ?_, ?_⟩
  · simp [Tracker.Tidy]
  · simp [Store.Tidy]
  · simp

theorem Tidy.take (h : m.Tidy table gvk) (fits : e.fits m.tracker.listing.isSome = true) :
    (m.take table gvk e).Tidy table gvk := by
  refine ⟨h.tracker.observe fits, h.store.apply fits, ?_⟩
  intro change there
  obtain there | there := List.mem_append.1 there
  · exact h.changes change there
  · obtain ⟨event, told, passed⟩ := List.mem_filterMap.1 there
    obtain ⟨n, o, rfl, carries, own, -, selected⟩ := FilterTable.of_passes? passed
    exact ⟨own.plainName (h.tracker.isPlain_of_change fits told carries), selected⟩

/-- An object that some filter takes: the store and the tracker agree on it, and its last change
was not a deletion exactly if the tracker knows it. -/
structure Follows (ns name : String) (m : Mirror) : Prop where
  upkeep : Upkeep ns name m.store m.tracker
  told : (ns, name) ∈ standing m.changes ↔ (m.tracker.find? (joinedName ns name)).isSome = true

theorem Follows.empty (ns name : String) : Follows ns name {} :=
  ⟨.empty ns name, by simp [mem_standing, actionsOn, Tracker.find?]⟩

theorem Follows.take (h : m.Follows ns name) (tidy : m.Tidy table gvk)
    (good : PlainName ns name)
    (selected : ∃ f ∈ table.filtersOf gvk, f.selector.selects ns name = true)
    (fits : e.fits m.tracker.listing.isSome = true) : (m.take table gvk e).Follows ns name := by
  refine ⟨(h.upkeep.observe good fits).1, ?_⟩
  have told := actionsOn_eq_told selected (m.tracker.observe e).2
  rw [mem_standing, Mirror.take, actionsOn, List.filter_append, List.map_append, ← actionsOn,
    ← actionsOn, told, List.getLast?_append]
  obtain ⟨nothing, same⟩ | ⟨a, last, known⟩ := Tracker.agrees_observe tidy.tracker fits good
  · rw [nothing, same, ← h.told, mem_standing]
    rfl
  · rw [last, ← known]
    simp

/-- What every report in order keeps is kept by all of them, and the tracker knows
whether a full list is open after them. -/
theorem kept {P : Mirror → Prop} {events : List WatchEvent}
    (keeps : ∀ m e, e.fits m.tracker.listing.isSome = true → P m → P (m.take table gvk e))
    (ordered : inOrder m.tracker.listing.isSome (events.map .report) = true) (holds : P m) :
    P (events.foldl (take table gvk) m) ∧
      (events.foldl (take table gvk) m).tracker.listing.isSome =
        listingAfter m.tracker.listing.isSome (events.map .report) := by
  induction events generalizing m with
  | nil => exact ⟨holds, rfl⟩
  | cons e events ih =>
      simp only [List.map_cons, inOrder, Bool.and_eq_true] at ordered
      have listing : (m.take table gvk e).tracker.listing.isSome =
          e.opens m.tracker.listing.isSome := m.tracker.observe_listing e
      have rest := ih (m := m.take table gvk e) (by rw [listing]; exact ordered.2)
        (keeps m e ordered.1 holds)
      rw [listing] at rest
      exact rest

theorem tidy_after (table : FilterTable) (gvk : Gvk) {events : List WatchEvent}
    (ordered : inOrder false (events.map .report) = true) :
    (after table gvk events).Tidy table gvk ∧
      (after table gvk events).tracker.listing.isSome = listingAfter false (events.map .report) :=
  kept (m := {}) (fun _ _ fits tidy => tidy.take fits) ordered (.empty table gvk)

theorem follows_after {events : List WatchEvent} (good : PlainName ns name)
    (selected : ∃ f ∈ table.filtersOf gvk, f.selector.selects ns name = true)
    (ordered : inOrder false (events.map .report) = true) :
    (after table gvk events).Follows ns name :=
  (kept (m := {}) (P := fun m => m.Tidy table gvk ∧ m.Follows ns name)
    (fun _ _ fits h => ⟨h.1.take fits, h.2.take h.1 good selected fits⟩) ordered
    ⟨.empty table gvk, .empty ns name⟩).1.2

/-- After reports that come in order and leave no full list open, the objects whose last
change was not a deletion are the objects in the store that some filter takes. -/
theorem standing_eq_selected (plan : WatchPlan) (gvk : Gvk) {events : List WatchEvent}
    (ordered : inOrder false (events.map .report) = true)
    (closed : listingAfter false (events.map .report) = false) :
    standing (after plan.filterTable gvk events).changes =
      (after plan.filterTable gvk events).store.selected (plan.filtersOf gvk) := by
  obtain ⟨tidy, listing⟩ := tidy_after plan.filterTable gvk ordered
  rw [← plan.filtersOf_filterTable]
  ext ⟨ns, name⟩
  by_cases here : PlainName ns name ∧
      ∃ f ∈ plan.filterTable.filtersOf gvk, f.selector.selects ns name = true
  · have follows := follows_after here.1 here.2 ordered
    have ended : (after plan.filterTable gvk events).tracker.listing = none := by
      rw [← Option.not_isSome_iff_eq_none, listing, closed]
      simp
    have found : (ns, name) ∈ standing (after plan.filterTable gvk events).changes ↔
        ((after plan.filterTable gvk events).store.at? (.at ns name)).isSome = true :=
      follows.told.trans ⟨follows.upkeep.settled ended, follows.upkeep.found⟩
    rw [found, tidy.store.at?_isSome]
    exact (and_iff_left here.2).symm
  · refine iff_of_false (fun stands => here ?_) (fun held => here ?_)
    · obtain ⟨e, last, -⟩ := stands
      obtain ⟨there, about⟩ := List.mem_filter.1 (List.mem_of_getLast? last)
      simp only [Bool.and_eq_true, beq_iff_eq] at about
      obtain ⟨rfl, rfl⟩ := about
      exact tidy.changes e there
    · obtain ⟨⟨entry, there, own⟩, selected⟩ := held
      exact ⟨own.plainName (tidy.store entry (.inl there)).2, selected⟩

/-- Reports among which a full list is given up after it has left out one object, and
begun again. One object vanishes unseen, one is deleted, and one is added in between. -/
def interrupted : List WatchEvent :=
  let a := Engine.namedObject "a"
  let b := Engine.namedObject "b"
  let c := Engine.namedObject "c"
  [.listBegin, .listed (a "1"), .listed (b "2"), .listEnd, .deleted (b "3"), .applied (c "4"),
    .applied (b "5"), .listBegin, .listed (c "4"), .listBegin, .listed (b "5"), .listed (a "6"),
    .listEnd]

theorem standing_eq_selected_interrupted :
    inOrder false (interrupted.map .report) = true ∧
    listingAfter false (interrupted.map .report) = false ∧
    standing (after Engine.everyConfigMap.filterTable Engine.configMap interrupted).changes =
      (after Engine.everyConfigMap.filterTable Engine.configMap interrupted).store.selected
        (Engine.everyConfigMap.filtersOf Engine.configMap) :=
  ⟨by decide, by decide,
    standing_eq_selected Engine.everyConfigMap Engine.configMap (by decide) (by decide)⟩

/-- Of the three objects in those reports, one is gone. -/
example : (after Engine.everyConfigMap.filterTable Engine.configMap interrupted).changes.map
    (fun e => (e.reference.name, e.action)) =
      [("a", .added), ("b", .added), ("b", .deleted), ("c", .added), ("b", .added),
        ("c", .updated), ("b", .updated), ("a", .updated), ("c", .deleted)] := by
  decide +kernel

end Mirror

end ResourceWatch
