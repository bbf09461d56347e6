import ResourceWatch.Proofs.Engine.Forwarding

/-!
# A pump is hydrated when it is through with the first list

A stream says once that its first full list is complete, and its pump remembers that. A
pump takes the items of its stream one after the other and does not take the next
before the change that the last one amounts to has entered the channel. So everything
that the stream has yielded before the mark has been dealt with when the pump takes it.
-/

namespace ResourceWatch

/-- What a pump can become: one of its kind, which is hydrated if it was, and is to end if
it was. -/
structure Pump.Grows (q q' : Pump) : Prop where
  kind : q'.gvk = q.gvk
  hydrated : q.hydrated = true → q'.hydrated = true
  aborted : q.aborted = true → q'.aborted = true

theorem Pump.Grows.refl (q : Pump) : q.Grows q := ⟨rfl, id, id⟩

theorem Pump.Grows.trans {q q' q'' : Pump} (h : q.Grows q') (h' : q'.Grows q'') : q.Grows q'' :=
  ⟨h'.kind.trans h.kind, h'.hydrated ∘ h.hydrated, h'.aborted ∘ h.aborted⟩

namespace Path

variable {p p' p'' : Path} {t u : TaskId} {key : String} {alone : Prop} {gvk : Gvk}
  {arrived : List Arrival} {taken taken' : List StreamItem}

/-- What the stream of a kind is still to yield of what has arrived. -/
def remaining (p : Path) (gvk : Gvk) : List StreamItem :=
  (p.feed gvk).tracker.items (p.feed gvk).arrivals

/-- What a step takes from the stream of a kind, and what the pumps of the kind remember
of it. -/
inductive Yields (gvk : Gvk) (p p' : Path) : Prop where
  /-- Nothing is taken, and if there is a new pump it remembers nothing. -/
  | nothing (same : p'.remaining gvk = p.remaining gvk)
      (pumps : ∀ u q', p'.role u = .pump q' → q'.gvk = gvk →
        (q'.hydrated = false ∧ (p.feed gvk).taken = false) ∨
          ∃ q, p.role u = .pump q ∧ q.gvk = gvk ∧ q'.hydrated = q.hydrated)
  /-- A pump takes an item, and remembers if it is the mark. -/
  | item (t : TaskId) (q : Pump) (item : StreamItem) (pump : p.role t = .pump q)
      (kind : q.gvk = gvk) (state : q.state = .listening)
      (next : p.remaining gvk = item :: p'.remaining gvk)
      (pumps : ∀ u q', p'.role u = .pump q' → q'.gvk = gvk →
        q'.hydrated = (q.hydrated || StreamItem.isMark item))

theorem isMark_of_event? {table : FilterTable} {item : StreamItem} {e : ChangeEvent}
    (change : table.event? gvk item = some e) : StreamItem.isMark item = false := by
  rcases item with x | _ | _
  · rfl
  · rfl
  · cases change

theorem pump_of_become {r : Role} {q : Pump} (pump : (p.become t r).role u = .pump q)
    (other : ∀ q, r ≠ .pump q) : p.role u = .pump q :=
  (become_role_eq_iff.1 pump).elim (fun h => absurd h.2 (other q)) (·.2)

/-- A pump was one of its kind before, which remembered as much. -/
def Recalls (p p' : Path) : Prop :=
  ∀ u q', p'.role u = .pump q' →
    ∃ q, p.role u = .pump q ∧ q.gvk = q'.gvk ∧ q'.hydrated = q.hydrated

theorem Recalls.refl (p : Path) : p.Recalls p := fun _ q pump => ⟨q, pump, rfl, rfl⟩

theorem Recalls.become (h : p.Recalls p') {r : Role} (other : ∀ q, r ≠ .pump q) :
    p.Recalls (p'.become t r) := fun u q' pump => h u q' (pump_of_become pump other)

/-- Pumps that are to end remember as much. -/
theorem recalls_abandon (p : Path) (ts : List TaskId) : p.Recalls (p.abandon ts) := by
  intro u q' pump
  obtain was | ⟨q, was, -, rfl⟩ := role_of_abandon pump
  · exact ⟨q', was, rfl, rfl⟩
  · exact ⟨q, was, rfl, rfl⟩

/-- So does a pump whose state alone changes. -/
theorem recalls_turn {q q₁ : Pump} (pump : p.role t = .pump q) (kind : q₁.gvk = q.gvk)
    (hydrated : q₁.hydrated = q.hydrated) : p.Recalls (p.become t (.pump q₁)) := by
  intro u q' pump'
  obtain ⟨rfl, same⟩ | ⟨-, was⟩ := become_role_eq_iff.1 pump'
  · cases same
    exact ⟨q, pump, kind.symm, hydrated⟩
  · exact ⟨q', was, rfl, rfl⟩

/-- Nothing is taken from a feed that is as it was. -/
theorem Recalls.yields (h : p.Recalls p') (feed : p'.feed gvk = p.feed gvk) :
    Yields gvk p p' := by
  refine .nothing (by rw [remaining, feed, remaining]) fun u q' pump kind => .inr ?_
  obtain ⟨q, was, kind', hydrated⟩ := h u q' pump
  exact ⟨q, was, kind'.trans kind, hydrated⟩

/-- A pump takes an item of its stream. It is one of this stream or of another. -/
theorem yields_item {q q₁ : Pump} {item : StreamItem} {rest : List Arrival} (single : p.Single)
    (pump : p.role t = .pump q) (state : q.state = .listening)
    (next : (p.feed q.gvk).arrivals = .item item :: rest) (kind : q₁.gvk = q.gvk)
    (hydrated : q₁.hydrated = (q.hydrated || StreamItem.isMark item)) :
    Yields gvk p ((p.feedAt q.gvk { p.feed q.gvk with arrivals := rest }).become t
      (.pump q₁)) := by
  by_cases here : q.gvk = gvk
  · subst here
    refine .item t q item pump rfl state ?_ ?_
    · simp [remaining, next, Tracker.items]
    · intro u q' pump' kind'
      obtain ⟨-, same⟩ | ⟨other, was⟩ := become_role_eq_iff.1 pump'
      · cases same
        exact hydrated
      · exact absurd (single.pump pump was kind').1 other
  · refine .nothing (by simp [remaining, Function.update_of_ne (Ne.symm here)]) ?_
    refine fun u q' pump' kind' => .inr ?_
    obtain ⟨-, same⟩ | ⟨-, was⟩ := become_role_eq_iff.1 pump'
    · cases same
      exact absurd (kind.symm.trans kind') here
    · exact ⟨q', was, kind', rfl⟩

theorem Step.yields (step : Step alone p p') (single : p.Single) (gvk : Gvk) :
    Yields gvk p p' := by
  have calm : p.Recalls p := .refl p
  cases step with
  | stream t g store schedule new unfired spare untaken =>
      by_cases here : gvk = g
      · subst here
        refine .nothing (by simp [remaining]) fun u q' pump kind => ?_
        obtain ⟨-, same⟩ | ⟨-, was⟩ := become_role_eq_iff.1 pump
        · cases same
          exact .inl ⟨rfl, untaken⟩
        · exact .inr ⟨q', was, kind, rfl⟩
      · refine .nothing (by simp [remaining, Function.update_of_ne here]) fun u q' pump kind => ?_
        obtain ⟨-, same⟩ | ⟨-, was⟩ := become_role_eq_iff.1 pump
        · cases same
          exact absurd kind.symm here
        · exact .inr ⟨q', was, kind, rfl⟩
  | report t q e rest pump ready state unfired kept next =>
      refine .nothing ?_ fun u q' pump kind => .inr ⟨q', pump, kind, rfl⟩
      by_cases here : gvk = q.gvk
      · subst here
        simp [remaining, next, Tracker.items_report]
      · simp [remaining, Function.update_of_ne here]
  | pass t q item rest pump ready state unfired kept next =>
      exact yields_item single pump state next rfl rfl
  | pick t q item rest e pump ready state unfired kept next change =>
      exact yields_item single pump state next rfl (by simp [isMark_of_event? change])
  | send t q e pump => exact Recalls.yields (recalls_turn pump rfl rfl) rfl
  | finish t q schedule pump => exact Recalls.yields (recalls_turn pump rfl rfl) rfl
  | founder t opened spare pumps =>
      have marked := (recalls_abandon p pumps).become (t := t) (r := .bystander) (by simp)
      exact Recalls.yields marked rfl
  | forsake pumps => exact Recalls.yields (recalls_abandon p pumps) rfl
  | delegate t v =>
      have first := calm.become (t := v) (r := .starter false) (by simp)
      have last := first.become (t := t) (r := .bystander) (by simp)
      exact Recalls.yields last rfl
  | begin | await | «open» | fail | retire | record | conclude =>
      refine Recalls.yields (calm.become ?_) rfl
      simp
  | _ => exact Recalls.yields calm rfl

/-- Every pump is still a pump, of its kind. -/
def Stays (p p' : Path) : Prop :=
  ∀ u q, p.role u = .pump q → ∃ q', p'.role u = .pump q' ∧ q.Grows q'

theorem Stays.refl (p : Path) : p.Stays p := fun _ q pump => ⟨q, pump, .refl q⟩

theorem Stays.trans (h : p.Stays p') (h' : p'.Stays p'') : p.Stays p'' := by
  intro u q pump
  obtain ⟨q', pump', grows⟩ := h u q pump
  obtain ⟨q'', pump'', grows'⟩ := h' u q' pump'
  exact ⟨q'', pump'', grows.trans grows'⟩

/-- A task that is no pump becomes something else. -/
theorem stays_become {r r' : Role} (was : p.role t = r) (other : ∀ q, r ≠ .pump q) :
    p.Stays (p.become t r') := by
  intro u q pump
  have elsewhere : u ≠ t := by
    rintro rfl
    exact other q (was.symm.trans pump)
  exact ⟨q, (become_role_of_ne elsewhere).trans pump, .refl q⟩

theorem stays_turn {q q₁ : Pump} (pump : p.role t = .pump q) (grows : q.Grows q₁) :
    p.Stays (p.become t (.pump q₁)) := by
  intro u q' pump'
  by_cases here : u = t
  · subst here
    obtain rfl := Role.pump.inj (pump.symm.trans pump')
    exact ⟨q₁, become_role_self, grows⟩
  · exact ⟨q', (become_role_of_ne here).trans pump', .refl q'⟩

theorem stays_abandon (p : Path) (ts : List TaskId) : p.Stays (p.abandon ts) := by
  intro u q pump
  rw [abandon_role]
  split
  · rw [pump, Role.abandon]
    split
    · exact ⟨q, rfl, .refl q⟩
    · exact ⟨_, rfl, rfl, id, fun _ => rfl⟩
  · exact ⟨q, pump, .refl q⟩

theorem Step.stays (step : Step alone p p') : p.Stays p' := by
  cases step with
  | begin t _ new => exact stays_become new (by simp)
  | fail t new => exact stays_become new (by simp)
  | record t _ new => exact stays_become new (by simp)
  | await t starter => exact stays_become starter (by simp)
  | «open» t opened starter => exact stays_become starter (by simp)
  | retire t failing => exact stays_become failing (by simp)
  | conclude t key result time holder => exact stays_become holder (by simp)
  | stream t gvk store schedule new => exact stays_become new (by simp)
  | delegate t v starter new =>
      have first : p.Stays (p.become v (.starter false)) := stays_become new (by simp)
      refine first.trans (stays_become (r := .starter false) ?_ (by simp))
      by_cases same : t = v
      · rw [same]
        exact become_role_self
      · exact (become_role_of_ne same).trans starter
  | founder t opened spare pumps schedule starter =>
      have marked := stays_abandon p pumps
      have waits : (p.abandon pumps).role t = .starter opened :=
        (abandon_role_eq_iff (by simp)).2 starter
      exact marked.trans (stays_become waits (by simp))
  | forsake pumps => exact stays_abandon p pumps
  | pass t q item rest pump => exact stays_turn pump ⟨rfl, by simp +contextual, id⟩
  | pick t q item rest e pump => exact stays_turn pump ⟨rfl, id, id⟩
  | send t q e pump => exact stays_turn pump ⟨rfl, id, id⟩
  | finish t q schedule pump => exact stays_turn pump ⟨rfl, id, id⟩
  | _ => exact Stays.refl p

/-- What has entered the channel stays on record. -/
theorem Step.entered (step : Step alone p p') (gvk : Gvk) :
    p.entered gvk <+: p'.entered gvk := by
  cases step with
  | send | conclude =>
      rw [entered_note]
      exact List.prefix_append ..
  | _ => exact List.prefix_rfl

/-- Whether the mark is among what was taken, and every change that was taken before it
has entered the channel. -/
def Listed (p : Path) (gvk : Gvk) (taken : List StreamItem) : Prop :=
  ∃ before rest, taken = before ++ .ok .hydrated :: rest ∧
    (∀ item ∈ before, StreamItem.isMark item = false) ∧
    before.filterMap (p.table.event? gvk) <+: p.entered gvk

/-- The pump of a kind is hydrated exactly if it has taken the mark; it was then through
with everything before. -/
structure Marks (gvk : Gvk) (p : Path) (taken : List StreamItem) : Prop where
  unmarked : ∀ t q, p.role t = .pump q → q.gvk = gvk → q.hydrated = false →
    ∀ item ∈ taken, StreamItem.isMark item = false
  marked : ∀ t q, p.role t = .pump q → q.gvk = gvk → q.hydrated = true → p.Listed gvk taken

/-- More may be taken after the mark, and more may enter. -/
theorem Listed.more (h : p.Listed gvk taken) (table : p'.table = p.table)
    (entered : p.entered gvk <+: p'.entered gvk) (more : List StreamItem) :
    p'.Listed gvk (taken ++ more) := by
  obtain ⟨before, rest, rfl, first, through⟩ := h
  exact ⟨before, rest ++ more, by simp, first, table ▸ through.trans entered⟩

theorem eq_of_isMark {item : StreamItem} (mark : StreamItem.isMark item = true) :
    item = .ok .hydrated := by
  rcases item with x | _ | _
  · cases mark
  · cases mark
  · rfl

theorem Marks.step (h : Marks gvk p taken) (flow : Flow arrived gvk p taken)
    (flow' : Flow arrived gvk p' taken') (single : p.Single) (step : Step alone p p') :
    Marks gvk p' taken' := by
  have items : taken' ++ p'.remaining gvk = taken ++ p.remaining gvk :=
    flow'.items.symm.trans flow.items
  have entered := step.entered gvk
  cases step.yields single gvk with
  | nothing same pumps =>
      obtain rfl : taken' = taken := by
        rw [same] at items
        exact List.append_cancel_right items
      constructor
      · intro t q' pump kind unhydrated
        obtain ⟨-, untaken⟩ | ⟨q, was, kind', hydrated⟩ := pumps t q' pump kind
        · rw [flow.fresh untaken]
          simp
        · exact h.unmarked t q was kind' (hydrated.symm.trans unhydrated)
      · intro t q' pump kind hydrated
        obtain ⟨unhydrated, -⟩ | ⟨q, was, kind', remembers⟩ := pumps t q' pump kind
        · cases hydrated.symm.trans unhydrated
        · simpa using (h.marked t q was kind' (remembers.symm.trans hydrated)).more step.table
            entered []
  | item t q item pump kind state next pumps =>
      obtain rfl : taken' = taken ++ [item] := by
        rw [next, List.append_cons] at items
        exact List.append_cancel_right items
      constructor
      · intro u q' pump' kind' unhydrated
        rw [pumps u q' pump' kind', Bool.or_eq_false_iff] at unhydrated
        have before := h.unmarked t q pump kind unhydrated.1
        intro item' there
        obtain there | there := List.mem_append.1 there
        · exact before item' there
        · rw [List.mem_singleton.1 there]
          exact unhydrated.2
      · intro u q' pump' kind' hydrated
        rw [pumps u q' pump' kind'] at hydrated
        cases was : q.hydrated with
        | true => exact (h.marked t q pump kind was).more step.table entered [item]
        | false =>
            -- this is the mark, and the pump was through with all that it had taken
            rw [was, Bool.false_or] at hydrated
            have stage := flow.stage t q pump kind
            simp only [Stage, state, kind] at stage
            refine ⟨taken, [], by rw [eq_of_isMark hydrated], h.unmarked t q pump kind was, ?_⟩
            rw [step.table, ← stage]
            exact entered

theorem Marks.take (h : Marks gvk p taken) (take : Take t key p p') : Marks gvk p' taken := by
  have table := take.untouched.table
  obtain ⟨queue, time, result, asking, -, -⟩ := take
  have was {v : TaskId} {q : Pump}
      (pump : (p.become t (.holder key result)).role v = .pump q) : p.role v = .pump q :=
    pump_of_become pump (by simp)
  refine ⟨fun v q pump => h.unmarked v q (was pump), fun v q pump kind hydrated => ?_⟩
  have entered : p.entered gvk <+: ((p.withQueue queue).become t
      (.holder key result) |>.note (.began key time)).entered gvk := by
    rw [entered_note]
    exact List.prefix_append ..
  simpa using (h.marked v q (was pump) kind hydrated).more table entered []

theorem Marks.inflow {g : Gvk} {f : Feed} (h : Marks gvk p taken) (inflow : Inflow g f p p') :
    Marks gvk p' taken := by
  obtain ⟨schedule, keeps, woken⟩ := inflow
  exact ⟨h.unmarked, h.marked⟩

/-- Streams that are passed on, and pumps that remember the marks. -/
structure Remembers (arrived : Gvk → List Arrival) (p : Path) : Prop where
  single : p.Single
  kinds : ∀ gvk, ∃ taken, Flow (arrived gvk) gvk p taken ∧ Marks gvk p taken

variable {arrivedOf : Gvk → List Arrival}

theorem Remembers.step (h : p.Remembers arrivedOf) (step : Step alone p p') :
    p'.Remembers arrivedOf := by
  have sends (t : TaskId) (q : Pump) (e : ChangeEvent) (pump : p.role t = .pump q)
      (state : q.state = .sending e) : e.reference.kind = some q.gvk := by
    obtain ⟨taken, flow, -⟩ := h.kinds q.gvk
    exact flow.sends pump state
  refine ⟨h.single.step step, fun gvk => ?_⟩
  obtain ⟨taken, flow, marks⟩ := h.kinds gvk
  obtain ⟨taken', flow'⟩ := flow.step h.single sends step
  exact ⟨taken', flow', marks.step flow flow' h.single step⟩

end Path

namespace Engine

open ResourceWatch.Path

variable {options : EngineOptions} {plan : WatchPlan} {past : Past Engine Command} {w : Engine}

/-- At every moment of a run, pumps remember the marks of their streams. -/
theorem remembers_of_run (run : conduct.Run (ofPlan options plan) past w) :
    w.path.Remembers (arrived · past) := by
  refine (path_of_run False (P := fun past p => p.Remembers (arrived · past))
    (fun _ _ => rfl) ?_ ?_ (fun absurd => absurd.elim) ?_ ?_ ?_ ?_ run).1
  · intro past c allowed
    exact ⟨by simpa [conduct] using allowed, fun absurd => absurd.elim⟩
  · refine ⟨⟨by simp, by simp⟩, fun gvk => ⟨[], ?_, by simp, by simp⟩⟩
    exact ⟨rfl, rfl, fun _ => rfl, ⟨[], List.prefix_rfl, ofPlan_entered options plan gvk⟩,
      fun t q pump => by simp at pump⟩
  · exact fun h _ step => h.step step
  · intro past w h remembers _ silent
    simpa only [arrived_quiet silent] using remembers
  · intro past w t key p' h handed take
    simp only [arrived_quiet (h := .move t) (by simp)]
    refine ⟨h.single.take take, fun gvk => ?_⟩
    obtain ⟨taken, flow, marks⟩ := h.kinds gvk
    exact ⟨taken, flow.take take, marks.take take⟩
  · intro past w c gvk h _ comes inflow
    obtain ⟨more, came, -, arrivals, tracker, taken, ends⟩ := inflow_feed (w := w) past comes
    refine ⟨h.single.inflow inflow taken, fun g => ?_⟩
    obtain ⟨items, flow, marks⟩ := h.kinds g
    by_cases here : g = gvk
    · subst here
      exact ⟨items, came ▸ flow.inflow inflow arrivals tracker taken ends, marks.inflow inflow⟩
    · have nothing : arrived g (past ++ [(w, Happening.command c)]) = arrived g past :=
        arrived_command fun same => here (Option.some.inj (same.symm.trans comes))
      exact ⟨items, nothing ▸ flow.elsewhere inflow here, marks.inflow inflow⟩

end Engine

end ResourceWatch
