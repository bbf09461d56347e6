import ResourceWatch.Proofs.Engine.Waiting

/-!
# Streams are passed on in order

The items of a stream are what arrives for its kind, where a report stands for what
the tracker makes of it. A pump takes them one after the other. What has entered the
channel of a kind is what the items that its pump is through with amount to, in
their order and each once; so it is what a prefix of the items amounts to, whatever
becomes of the pump. When nothing can move, the pump was not given up, and the
channel is open and has room, the prefix is all.
-/

namespace ResourceWatch

/-- The items that a tracker makes of what arrives. -/
def Tracker.items (t : Tracker) : List Arrival → List StreamItem
  | [] => []
  | .item i :: rest => i :: t.items rest
  | .report e :: rest => (t.observe e).2.map .ok ++ (t.observe e).1.items rest

/-- The tracker after everything that arrives has been taken. -/
def Tracker.after (t : Tracker) : List Arrival → Tracker
  | [] => t
  | .item _ :: rest => t.after rest
  | .report e :: rest => (t.observe e).1.after rest

/-- The changes of a kind that entered the event channel. -/
def History.enteredOf (h : History) (gvk : Gvk) : List ChangeEvent :=
  h.entered.filter (·.reference.kind = some gvk)

/-- What has arrived for a kind. A feed that is closed takes nothing. -/
def Engine.arrived (gvk : Gvk) (past : Past Engine Engine.Command) : List Arrival :=
  past.filterMap fun
    | (w, .command (.arrive g a)) =>
      if g = gvk ∧ (w.provider.feed gvk).live = true then some a else none
    | _ => none

def Engine.streamItems (gvk : Gvk) (past : Past Engine Engine.Command) : List StreamItem :=
  ({} : Tracker).items (arrived gvk past)

namespace Tracker

theorem items_append (t : Tracker) (a b : List Arrival) :
    t.items (a ++ b) = t.items a ++ (t.after a).items b := by
  induction a generalizing t with
  | nil => rfl
  | cons x a ih => cases x <;> simp [items, after, ih]

theorem after_append (t : Tracker) (a b : List Arrival) :
    t.after (a ++ b) = (t.after a).after b := by
  induction a generalizing t with
  | nil => rfl
  | cons x a ih => cases x <;> simp [after, ih]

/-- A report may as well be replaced by what the tracker makes of it. -/
theorem items_report (t : Tracker) (e : WatchEvent) (rest : List Arrival) :
    (t.observe e).1.items ((t.observe e).2.map (fun e => Arrival.item (.ok e)) ++ rest) =
      t.items (.report e :: rest) := by
  have made (t : Tracker) (events : List StreamEvent) :
      t.items (events.map (fun e => Arrival.item (.ok e)) ++ rest) =
        events.map .ok ++ t.items rest := by
    induction events with
    | nil => rfl
    | cons e events ih => simp [items, ih]
  exact made _ _

theorem after_report (t : Tracker) (e : WatchEvent) (rest : List Arrival) :
    (t.observe e).1.after ((t.observe e).2.map (fun e => Arrival.item (.ok e)) ++ rest) =
      t.after (.report e :: rest) := by
  have made (t : Tracker) (events : List StreamEvent) :
      t.after (events.map (fun e => Arrival.item (.ok e)) ++ rest) = t.after rest := by
    induction events with
    | nil => rfl
    | cons e events ih => simp [after, ih]
  exact made _ _

end Tracker

namespace History

theorem enteredOf_append (h h' : History) (gvk : Gvk) :
    enteredOf (h ++ h') gvk = h.enteredOf gvk ++ enteredOf h' gvk := by
  simp [enteredOf, entered]

theorem enteredOf_filter (h : History) (gvk : Gvk) :
    enteredOf (h.filter Occurrence.isMilestone) gvk = h.enteredOf gvk := by
  have same : entered (h.filter Occurrence.isMilestone) = h.entered := by
    rw [entered]
    rw [List.filterMap_filter]
    congr
    funext o
    cases o <;> rfl
  rw [enteredOf, same, enteredOf]

end History

namespace Path

variable {p p' : Path} {t u : TaskId} {key : String} {alone : Prop} {gvk g : Gvk}

def entered (p : Path) (gvk : Gvk) : List ChangeEvent := History.enteredOf p.record gvk

/-- How what has entered is related to the items that a pump has taken. A pump that
has ended without being made to has taken all, and nothing more comes. -/
def Stage (p : Path) (q : Pump) (taken : List StreamItem) : Prop :=
  match q.state with
  | .listening => p.entered q.gvk = taken.filterMap (p.table.event? q.gvk)
  | .sending e => ∃ before item, taken = before ++ [item] ∧ p.table.event? q.gvk item = some e ∧
      p.entered q.gvk = before.filterMap (p.table.event? q.gvk)
  | .ended => q.aborted = false → p.fired = false → p.channel.closed = false →
      p.entered q.gvk = taken.filterMap (p.table.event? q.gvk) ∧
        (p.feed q.gvk).arrivals = [] ∧ (p.feed q.gvk).live = false

/-- A kind whose pump has taken some items of all that has arrived. -/
structure Flow (arrived : List Arrival) (gvk : Gvk) (p : Path) (taken : List StreamItem) :
    Prop where
  items : ({} : Tracker).items arrived =
    taken ++ (p.feed gvk).tracker.items (p.feed gvk).arrivals
  tracker : ({} : Tracker).after arrived = (p.feed gvk).tracker.after (p.feed gvk).arrivals
  fresh : (p.feed gvk).taken = false → taken = []
  front : ∃ through, through <+: taken ∧
    p.entered gvk = through.filterMap (p.table.event? gvk)
  stage : ∀ t q, p.role t = .pump q → q.gvk = gvk → p.Stage q taken

/-- Nothing happens to a kind. -/
structure Still (gvk : Gvk) (p p' : Path) : Prop where
  table : p'.table = p.table
  feed : p'.feed gvk = p.feed gvk
  entered : p'.entered gvk = p.entered gvk
  fired : p.fired = true → p'.fired = true
  closed : p.channel.closed = true → p'.channel.closed = true
  pumps : ∀ t q', p'.role t = .pump q' → q'.gvk = gvk →
    ∃ q, p.role t = .pump q ∧ q.gvk = gvk ∧ q'.state = q.state ∧
      (q.aborted = true → q'.aborted = true)

theorem Still.refl (gvk : Gvk) (p : Path) : p.Still gvk p :=
  ⟨rfl, rfl, rfl, id, id, fun _ q pump kind => ⟨q, pump, kind, rfl, id⟩⟩

/-- What becomes of a task that is no pump of the kind does not matter to it. -/
theorem Still.become (h : Still gvk p p') {r : Role} (other : ∀ q, r = .pump q → q.gvk ≠ gvk) :
    p.Still gvk (p'.become t r) := by
  refine ⟨h.table, h.feed, h.entered, h.fired, h.closed, ?_⟩
  intro u q pump kind
  obtain ⟨-, same⟩ | ⟨-, was⟩ := become_role_eq_iff.1 pump
  · exact absurd kind (other q same)
  · exact h.pumps u q was kind

theorem Still.abandon (h : Still gvk p p') (pumps : List TaskId) :
    p.Still gvk (p'.abandon pumps) := by
  refine ⟨h.table, h.feed, h.entered, h.fired, h.closed, ?_⟩
  intro u q pump kind
  obtain was | ⟨q', was, -, rfl⟩ := role_of_abandon pump
  · exact h.pumps u q was kind
  · obtain ⟨q, was, kind, state, -⟩ := h.pumps u q' was kind
    exact ⟨q, was, kind, state, fun _ => rfl⟩

/-- What happens elsewhere changes nothing for a kind. -/
theorem Flow.still {arrived : List Arrival} {taken : List StreamItem} (h : Flow arrived gvk p taken)
    (still : p.Still gvk p') : Flow arrived gvk p' taken := by
  obtain ⟨table, feed, entered, fired, closed, pumps⟩ := still
  refine ⟨feed ▸ h.items, feed ▸ h.tracker, fun new => h.fresh (feed ▸ new), ?_, ?_⟩
  · rw [entered, table]
    exact h.front
  · intro t q' pump kind
    subst kind
    obtain ⟨q, was, same, state, aborted⟩ := pumps t q' pump rfl
    have stage := h.stage t q was same
    rw [Stage] at stage ⊢
    rw [state, entered, table, feed]
    rw [same] at stage
    cases stands : q.state with
    | listening => simpa only [stands] using stage
    | sending e => simpa only [stands] using stage
    | ended =>
        simp only [stands] at stage ⊢
        intro kept unfired unclosed
        refine stage ?_ ?_ ?_
        · exact Bool.eq_false_iff.2 fun h => by simp [aborted h] at kept
        · exact Bool.eq_false_iff.2 fun h => by simp [fired h] at unfired
        · exact Bool.eq_false_iff.2 fun h => by simp [closed h] at unclosed

@[simp] theorem entered_note (o : Occurrence) :
    (p.note o).entered gvk = p.entered gvk ++ History.enteredOf [o] gvk :=
  History.enteredOf_append _ _ _

/-- The only pump of a kind goes on: it is enough to look at it and its feed. -/
theorem Flow.turn {arrived : List Arrival} {taken taken' : List StreamItem} {q q' : Pump}
    (h : Flow arrived q.gvk p taken) (single : p.Single) (pump : p.role t = .pump q)
    (role : p'.role = Function.update p.role t (.pump q'))
    (items : ({} : Tracker).items arrived =
      taken' ++ (p'.feed q.gvk).tracker.items (p'.feed q.gvk).arrivals)
    (tracker : (p.feed q.gvk).tracker.after (p.feed q.gvk).arrivals =
      (p'.feed q.gvk).tracker.after (p'.feed q.gvk).arrivals)
    (opened : (p'.feed q.gvk).taken = (p.feed q.gvk).taken)
    (front : ∃ through, through <+: taken' ∧
      p'.entered q.gvk = through.filterMap (p'.table.event? q.gvk))
    (stage : p'.Stage q' taken') : Flow arrived q.gvk p' taken' := by
  refine ⟨items, h.tracker.trans tracker, ?_, front, ?_⟩
  · intro new
    rw [opened, single.taken t q pump] at new
    simp at new
  · intro u q₁ pump' kind'
    rw [role] at pump'
    by_cases same : u = t
    · subst same
      obtain rfl : q' = q₁ := by simpa using pump'
      exact stage
    · rw [Function.update_of_ne same] at pump'
      exact absurd (single.single u t q₁ q pump' pump kind') same

theorem Flow.stream {arrived : List Arrival} {taken : List StreamItem}
    (h : Flow arrived gvk p taken) (single : p.Single) (untaken : (p.feed gvk).taken = false)
    (role : p'.role = Function.update p.role t (.pump { gvk }))
    (feed : p'.feed gvk = { p.feed gvk with taken := true })
    (record : p'.record = p.record) : Flow arrived gvk p' taken := by
  obtain rfl := h.fresh untaken
  have none : p.entered gvk = [] := by
    obtain ⟨through, front, entered⟩ := h.front
    rw [entered, List.prefix_nil.1 front]
    rfl
  have same : p'.entered gvk = [] := by
    rw [← none, entered, record, entered]
  refine ⟨feed ▸ h.items, feed ▸ h.tracker, fun _ => rfl, ⟨[], List.prefix_rfl, same⟩,
    ?_⟩
  intro u q pump kind
  rw [role] at pump
  by_cases here : u = t
  · subst here
    obtain rfl : ({ gvk } : Pump) = q := by simpa using pump
    exact same
  · rw [Function.update_of_ne here] at pump
    have opened := single.taken u q pump
    rw [kind, untaken] at opened
    simp at opened

/-- A change that waits for room is of the kind of its stream. -/
theorem Flow.sends {arrived : List Arrival} {taken : List StreamItem} {q : Pump} {e : ChangeEvent}
    (h : Flow arrived q.gvk p taken) (pump : p.role t = .pump q) (state : q.state = .sending e) :
    e.reference.kind = some q.gvk := by
  have stage := h.stage t q pump rfl
  simp only [Stage, state] at stage
  obtain ⟨before, item, -, change, -⟩ := stage
  exact FilterTable.event?_kind change

section Turns

variable {arrived : List Arrival} {taken : List StreamItem} {q : Pump}
  (h : Flow arrived q.gvk p taken) (single : p.Single) (pump : p.role t = .pump q)
include h single pump

/-- A report is replaced by what the tracker makes of it: nothing is taken yet. -/
theorem Flow.report {store : Gvk → Option Store} {e : WatchEvent} {rest : List Arrival}
    (state : q.state = .listening) (next : (p.feed q.gvk).arrivals = .report e :: rest) :
    Flow arrived q.gvk ((p.withStore store).feedAt q.gvk { p.feed q.gvk with
      tracker := ((p.feed q.gvk).tracker.observe e).1
      arrivals := ((p.feed q.gvk).tracker.observe e).2.map (fun e => Arrival.item (.ok e)) ++
        rest }) taken := by
  have stage := h.stage t q pump rfl
  have same : p.role = Function.update p.role t (.pump q) := by
    rw [← pump, Function.update_eq_self]
  refine h.turn single pump same ?_ ?_ ?_ h.front ?_
  · simp [h.items, next, Tracker.items_report]
  · simp [next, Tracker.after_report]
  · simp
  · simp only [Stage, state] at stage ⊢
    exact stage

/-- An item that amounts to no change is taken. -/
theorem Flow.pass {item : StreamItem} {rest : List Arrival} (state : q.state = .listening)
    (next : (p.feed q.gvk).arrivals = .item item :: rest)
    (nothing : p.table.event? q.gvk item = none) (hydrated : Bool) :
    Flow arrived q.gvk ((p.feedAt q.gvk { p.feed q.gvk with arrivals := rest }).become t
      (.pump { q with hydrated })) (taken ++ [item]) := by
  have stage := h.stage t q pump rfl
  simp only [Stage, state] at stage
  have through : p.entered q.gvk = (taken ++ [item]).filterMap (p.table.event? q.gvk) := by
    simp [stage, nothing]
  refine h.turn single pump rfl ?_ ?_ ?_ ⟨_, List.prefix_rfl, through⟩ ?_
  · simp [h.items, next, Tracker.items]
  · simp [next, Tracker.after]
  · simp
  · simp only [Stage, state]
    exact through

/-- An item that amounts to a change is taken. The change is still to enter. -/
theorem Flow.pick {item : StreamItem} {rest : List Arrival} {e : ChangeEvent}
    (state : q.state = .listening) (next : (p.feed q.gvk).arrivals = .item item :: rest)
    (change : p.table.event? q.gvk item = some e) :
    Flow arrived q.gvk ((p.feedAt q.gvk { p.feed q.gvk with arrivals := rest }).become t
      (.pump { q with state := .sending e })) (taken ++ [item]) := by
  have stage := h.stage t q pump rfl
  simp only [Stage, state] at stage
  refine h.turn single pump rfl ?_ ?_ ?_ ⟨taken, List.prefix_append .., stage⟩
    ⟨taken, item, rfl, change, stage⟩
  · simp [h.items, next, Tracker.items]
  · simp [next, Tracker.after]
  · simp

/-- The change that the last item amounts to enters. -/
theorem Flow.send {e : ChangeEvent} {c : Channel} (state : q.state = .sending e) :
    Flow arrived q.gvk
      (((p.withChannel c).become t (.pump { q with state := .listening })).note (.entered e))
      taken := by
  have stage := h.stage t q pump rfl
  simp only [Stage, state] at stage
  obtain ⟨before, item, rfl, change, stage⟩ := stage
  have own : History.enteredOf [.entered e] q.gvk = [e] := by
    simp [History.enteredOf, History.entered, FilterTable.event?_kind change]
  have through : p.entered q.gvk ++ [e] =
      (before ++ [item]).filterMap (p.table.event? q.gvk) := by
    simp [stage, change]
  rw [← own, ← entered_note] at through
  exact h.turn single pump rfl h.items rfl rfl ⟨_, List.prefix_rfl, through⟩ through

/-- A pump that ends without being made to has passed everything on. -/
theorem Flow.finish {c : Channel} {schedule : Schedule} (must : p.MustEnd q)
    (closed : c.closed = p.channel.closed) :
    Flow arrived q.gvk (((p.withChannel c).become t
      (.pump { q with state := .ended })).reschedule schedule) taken := by
  have stage := h.stage t q pump rfl
  refine h.turn single pump rfl h.items rfl rfl h.front ?_
  intro kept unfired unclosed
  obtain aborted | fired | shut | ⟨state, arrivals, ends⟩ := must
  · simp [aborted] at kept
  · exact absurd (fired.symm.trans unfired) (by simp)
  · exact absurd (closed.symm.trans unclosed) (by simp [shut])
  · simp only [Stage, state] at stage
    exact ⟨stage, arrivals, ends⟩

end Turns

/-- A step passes on some more of what has arrived for a kind, in order, or
nothing. -/
theorem Flow.step {arrived : List Arrival} {taken : List StreamItem}
    (h : Flow arrived gvk p taken) (single : p.Single)
    (sends : ∀ t q e, p.role t = .pump q → q.state = .sending e → e.reference.kind = some q.gvk)
    (step : Step alone p p') : ∃ taken', Flow arrived gvk p' taken' := by
  have calm := Still.refl gvk p
  -- what a pump of another kind becomes is nothing to this kind
  have aside {t : TaskId} {q : Pump} (other : q.gvk ≠ gvk) : p.Still gvk (p.become t (.pump q)) :=
    calm.become fun _ same => Role.pump.inj same ▸ other
  cases step with
  | stream t g store schedule new unfired spare untaken =>
      by_cases here : g = gvk
      · subst here
        exact ⟨taken, h.stream single untaken rfl (Function.update_self ..) rfl⟩
      · have still := aside (t := t) (q := { gvk := g }) here
        exact ⟨taken, h.still { still with feed := feedAt_feed_of_ne (Ne.symm here) }⟩
  | report t q e rest pump ready state unfired kept next =>
      by_cases here : q.gvk = gvk
      · subst here
        exact ⟨taken, h.report single pump state next⟩
      · exact ⟨taken, h.still { calm with feed := feedAt_feed_of_ne (Ne.symm here) }⟩
  | pass t q item rest pump ready state unfired kept next nothing =>
      by_cases here : q.gvk = gvk
      · subst here
        exact ⟨_, h.pass single pump state next nothing _⟩
      · have still := aside (t := t)
          (q := { q with hydrated := q.hydrated || StreamItem.isMark item }) here
        exact ⟨taken, h.still { still with feed := feedAt_feed_of_ne (Ne.symm here) }⟩
  | pick t q item rest e pump ready state unfired kept next change =>
      by_cases here : q.gvk = gvk
      · subst here
        exact ⟨_, h.pick single pump state next change⟩
      · have still := aside (t := t) (q := { q with state := .sending e }) here
        exact ⟨taken, h.still { still with feed := feedAt_feed_of_ne (Ne.symm here) }⟩
  | send t q e pump ready state =>
      by_cases here : q.gvk = gvk
      · subst here
        exact ⟨taken, h.send single pump state⟩
      · have known := sends t q e pump state
        have other : History.enteredOf [.entered e] gvk = [] := by
          simp [History.enteredOf, History.entered, known, here]
        have still := aside (t := t) (q := { q with state := .listening }) here
        refine ⟨taken, h.still { still with entered := ?_ }⟩
        rw [entered_note, other, List.append_nil]
        rfl
  | finish t q schedule pump live must =>
      have closed := withdraw_closed p.channel t
      by_cases here : q.gvk = gvk
      · subst here
        exact ⟨taken, h.finish single pump must closed⟩
      · have still := aside (t := t) (q := { q with state := .ended }) here
        exact ⟨taken, h.still { still with closed := closed.trans }⟩
  | begin | await | «open» | fail | retire | record =>
      exact ⟨taken, h.still { calm.become (by simp) with }⟩
  | conclude t key result time =>
      have still := calm.become (t := t) (r := .bystander) (by simp)
      refine ⟨taken, h.still { still with entered := ?_ }⟩
      rw [entered_note]
      simp [History.enteredOf, History.entered]
      rfl
  | delegate t u starter new =>
      exact ⟨taken, h.still ((calm.become (by simp)).become (by simp))⟩
  | founder t opened spare pumps =>
      exact ⟨taken, h.still { (calm.abandon pumps).become (by simp) with }⟩
  | forsake pumps => exact ⟨taken, h.still { calm.abandon pumps with }⟩
  | fire => exact ⟨taken, h.still { calm with fired := fun _ => rfl }⟩
  | hand e key c woken schedule received | skip e c woken schedule received =>
      have closes (closed : p.channel.closed = true) : c.closed = true :=
        (receive?_closed received).trans closed
      exact ⟨taken, h.still { calm with closed := closes }⟩
  | stop => exact ⟨taken, h.still { calm with closed := fun _ => rfl }⟩
  | _ => exact ⟨taken, h.still { calm with }⟩

theorem Flow.take {arrived : List Arrival} {taken : List StreamItem}
    (h : Flow arrived gvk p taken) (take : Take t key p p') : Flow arrived gvk p' taken := by
  obtain ⟨queue, time, result, asking, -, -⟩ := take
  have still := (Still.refl gvk p).become (t := t) (r := .holder key result) (by simp)
  refine h.still { still with entered := ?_ }
  rw [entered_note]
  simp [History.enteredOf, History.entered]
  rfl

/-- More may arrive for a kind, unless nothing may. -/
theorem Flow.inflow {arrived more : List Arrival} {taken : List StreamItem} {f : Feed}
    (h : Flow arrived gvk p taken) (inflow : Inflow gvk f p p')
    (arrivals : f.arrivals = (p.feed gvk).arrivals ++ more)
    (tracker : f.tracker = (p.feed gvk).tracker) (same : f.taken = (p.feed gvk).taken)
    (ends : (p.feed gvk).live = false → more = [] ∧ f.live = false) :
    Flow (arrived ++ more) gvk p' taken := by
  obtain ⟨schedule, keeps, woken⟩ := inflow
  have feed : ((p.feedAt gvk f).reschedule schedule).feed gvk = f := by simp
  refine ⟨?_, ?_, ?_, h.front, ?_⟩
  · rw [feed, Tracker.items_append, h.items, h.tracker, arrivals, tracker,
      Tracker.items_append, List.append_assoc]
  · rw [feed, Tracker.after_append, h.tracker, arrivals, tracker, Tracker.after_append]
  · intro new
    rw [feed, same] at new
    exact h.fresh new
  · intro t q pump kind
    subst kind
    have stage := h.stage t q pump rfl
    rw [Stage] at stage ⊢
    rw [feed]
    cases stands : q.state with
    | listening =>
        simp only [stands] at stage ⊢
        exact stage
    | sending e =>
        simp only [stands] at stage ⊢
        exact stage
    | ended =>
        simp only [stands] at stage ⊢
        intro kept unfired unclosed
        obtain ⟨through, none, dead⟩ := stage kept unfired unclosed
        obtain ⟨rfl, still⟩ := ends dead
        exact ⟨through, by simp [arrivals, none], still⟩

/-- What comes in for one kind is nothing to the others. -/
theorem Flow.elsewhere {arrived : List Arrival} {taken : List StreamItem} {f : Feed}
    (h : Flow arrived gvk p taken) (inflow : Inflow g f p p') (other : gvk ≠ g) :
    Flow arrived gvk p' taken := by
  obtain ⟨schedule, keeps, woken⟩ := inflow
  refine h.still { Still.refl gvk p with feed := ?_ }
  exact feedAt_feed_of_ne other

theorem Step.table (step : Step alone p p') : p'.table = p.table := by
  cases step <;> rfl

@[simp] theorem withdraw_capacity (c : Channel) (t : TaskId) :
    (c.withdraw t).1.capacity = c.capacity := by
  rw [Channel.withdraw]
  split
  · exact Channel.grant_capacity _
  · rfl

theorem Step.capacity (step : Step alone p p') : p'.channel.capacity = p.channel.capacity := by
  have received {e : ChangeEvent} {c : Channel} {woken : Option TaskId}
      (received : p.channel.receive? = some (e, c, woken)) :
      c.capacity = p.channel.capacity := by
    obtain ⟨rest, -, granted⟩ := receive?_eq_some.1 received
    have same := Channel.grant_capacity { p.channel with buffer := rest }
    rw [granted] at same
    exact same
  cases step with
  | hand e key c woken schedule got => exact received got
  | skip e c woken schedule got => exact received got
  | finish => exact withdraw_capacity _ _
  | _ => rfl

structure Forwards (options : EngineOptions) (plan : WatchPlan) (arrived : Gvk → List Arrival)
    (p : Path) : Prop where
  table : p.table = plan.filterTable
  capacity : p.channel.capacity = Nat.max 1 options.capacity
  single : p.Single
  awake : p.Awake 0
  flow : ∀ gvk, ∃ taken, Flow (arrived gvk) gvk p taken

variable {options : EngineOptions} {plan : WatchPlan} {arrived : Gvk → List Arrival}

theorem Forwards.step (h : p.Forwards options plan arrived) (step : Step alone p p') :
    p'.Forwards options plan arrived := by
  have sends (t : TaskId) (q : Pump) (e : ChangeEvent) (pump : p.role t = .pump q)
      (state : q.state = .sending e) : e.reference.kind = some q.gvk := by
    obtain ⟨taken, flow⟩ := h.flow q.gvk
    exact flow.sends pump state
  refine ⟨step.table.trans h.table, step.capacity.trans h.capacity, h.single.step step,
    h.awake.step h.single step, ?_⟩
  intro gvk
  obtain ⟨taken, flow⟩ := h.flow gvk
  exact flow.step h.single sends step

theorem Forwards.take (h : p.Forwards options plan arrived) (take : Take t key p p') :
    p'.Forwards options plan arrived := by
  have capacity := (congrArg Channel.capacity take.untouched.channel).trans h.capacity
  refine ⟨take.untouched.table.trans h.table, capacity, h.single.take take, h.awake.take take,
    ?_⟩
  intro gvk
  obtain ⟨taken, flow⟩ := h.flow gvk
  exact ⟨taken, flow.take take⟩

end Path

namespace Engine

open ResourceWatch.Path

variable {options : EngineOptions} {plan : WatchPlan} {past : Past Engine Command} {w : Engine}

/-- Nothing arrives for a kind by a command that is about something else. -/
theorem arrived_command {c : Command} {gvk : Gvk} (other : c.inflow? ≠ some gvk) :
    arrived gvk (past ++ [(w, Happening.command c)]) = arrived gvk past := by
  have nothing : arrived gvk [(w, Happening.command c)] = [] := by
    cases c with
    | arrive g a =>
        have ne : g ≠ gvk := by simpa [Command.inflow?] using other
        simp [arrived, ne]
    | _ => rfl
  rw [arrived, List.filterMap_append]
  exact (congrArg (arrived gvk past ++ ·) nothing).trans (List.append_nil _)

/-- What comes in for a kind is put after what has arrived, if the feed is live. -/
theorem inflow_feed (past : Past Engine Command) {c : Command} {gvk : Gvk}
    (comes : c.inflow? = some gvk) :
    ∃ more, arrived gvk (past ++ [(w, Happening.command c)]) = arrived gvk past ++ more ∧
      (more = [] ∨ ∃ a, c = .arrive gvk a ∧ more = [a]) ∧
      ((w.apply c).1.provider.feed gvk).arrivals = (w.provider.feed gvk).arrivals ++ more ∧
      ((w.apply c).1.provider.feed gvk).tracker = (w.provider.feed gvk).tracker ∧
      ((w.apply c).1.provider.feed gvk).taken = (w.provider.feed gvk).taken ∧
      ((w.provider.feed gvk).live = false →
        more = [] ∧ ((w.apply c).1.provider.feed gvk).live = false) := by
  cases c with
  | arrive g a =>
      obtain rfl : g = gvk := by simpa [Command.inflow?] using comes
      rw [arrive_feed]
      cases live : (w.provider.feed g).live with
      | true =>
          exact ⟨[a], by simp [arrived, live], .inr ⟨a, rfl, rfl⟩, by simp [Feed.arrive, live]⟩
      | false => exact ⟨[], by simp [arrived, live], .inl rfl, by simp [Feed.arrive, live]⟩
  | closeStream g =>
      obtain rfl : g = gvk := by simpa [Command.inflow?] using comes
      refine ⟨[], by simp [arrived], .inl rfl, ?_⟩
      have same : (w.apply (.closeStream g)).1.provider = w.provider.close g := rfl
      simpa [same] using close_live w.provider g
  | _ => simp [Command.inflow?] at comes

theorem arrived_quiet {h : Happening Command}
    (silent : ∀ x, h = .command x → x.inflow? = none) (gvk : Gvk) :
    arrived gvk (past ++ [(w, h)]) = arrived gvk past := by
  cases h with
  | move | elapse => simp [arrived]
  | command x => exact arrived_command (by simp [silent x rfl])

theorem ofPlan_entered (options : EngineOptions) (plan : WatchPlan) (gvk : Gvk) :
    (ofPlan options plan).path.entered gvk = [] := by
  simp [Path.entered, History.enteredOf, History.entered]

/-- At every moment of a run, the streams of the plan are passed on. -/
theorem forwards_of_run (run : conduct.Run (ofPlan options plan) past w) :
    w.path.Forwards options plan (arrived · past) := by
  refine (path_of_run False (P := fun past p => p.Forwards options plan (arrived · past))
    (fun _ _ => rfl) ?_ ?_ (fun absurd => absurd.elim) ?_ ?_ ?_ ?_ run).1
  · intro past c allowed
    exact ⟨by simpa [conduct] using allowed, fun absurd => absurd.elim⟩
  · refine ⟨rfl, rfl, ⟨by simp, by simp⟩, ⟨fun t _ q pump => by simp at pump, by simp [ofPlan],
      by simp [ofPlan], by simp [ofPlan], by simp [ofPlan], by simp [ofPlan]⟩, fun gvk => ⟨[], ?_⟩⟩
    exact ⟨rfl, rfl, fun _ => rfl, ⟨[], List.prefix_rfl, ofPlan_entered options plan gvk⟩,
      fun t q pump => by simp at pump⟩
  · exact fun h _ step => h.step step
  · intro past w h forwards _ silent
    simpa only [arrived_quiet silent] using forwards
  · intro past w t key p' h handed take
    simpa only [arrived_quiet (h := .move t) (by simp)] using h.take take
  · intro past w c gvk h _ comes inflow
    obtain ⟨more, came, -, arrivals, tracker, taken, ends⟩ := inflow_feed (w := w) past comes
    have capacity := (congrArg Channel.capacity inflow.untouched.channel).trans h.capacity
    refine ⟨inflow.untouched.table.trans h.table, capacity, h.single.inflow inflow taken,
      h.awake.inflow inflow, ?_⟩
    intro g
    obtain ⟨items, flow⟩ := h.flow g
    by_cases here : g = gvk
    · subst here
      exact ⟨items, came ▸ flow.inflow inflow arrivals tracker taken ends⟩
    · have nothing : arrived g (past ++ [(w, Happening.command c)]) = arrived g past :=
        arrived_command fun same => here (Option.some.inj (same.symm.trans comes))
      exact ⟨items, nothing ▸ flow.elsewhere inflow here⟩

theorem idle_iff : Cooperative.Idle w ↔ w.shop.schedule.ready = [] := Iff.rfl

/-- When nothing can move and the channel has room, nobody waits for room. -/
theorem waiting_of_idle {arrived : Gvk → List Arrival}
    (forwards : w.path.Forwards options plan arrived) (idle : Cooperative.Idle w)
    (room : w.channel.buffer.length < Nat.max 1 options.capacity) : w.channel.waiting = [] := by
  have granted : w.channel.granted = [] := by
    by_contra some_granted
    obtain ⟨u, there⟩ := List.exists_mem_of_ne_nil _ some_granted
    simpa [idle_iff.1 idle] using forwards.awake.granted u there
  by_contra some_waits
  have full := forwards.awake.full some_waits
  have capacity := forwards.capacity
  simp only [path_channel, granted, List.length_nil] at full capacity
  omega

/-- Every stream is passed on in order, each item that amounts to a change exactly
once. At every moment of a run, the changes of a kind that ever entered the event
channel are those that a prefix of its stream's items amounts to. When nothing can
move, the pump of the kind is not to end, the token has not fired, and the channel
is open and has room, they are those that all items so far amount to. -/
theorem entered_of_run (run : conduct.Run (ofPlan options plan) past w) (gvk : Gvk) :
    (∃ items, items <+: streamItems gvk past ∧
      w.shop.history.enteredOf gvk = items.filterMap (plan.filterTable.event? gvk)) ∧
    ∀ (t : TaskId) (q : Pump), w.tasks[t]? = some (.pump q) → q.gvk = gvk → q.aborted = false →
      w.fired = false → w.channel.closed = false →
      w.channel.buffer.length < Nat.max 1 options.capacity → Cooperative.Idle w →
      w.shop.history.enteredOf gvk =
        (streamItems gvk past).filterMap (plan.filterTable.event? gvk) := by
  have forwards := forwards_of_run run
  obtain ⟨taken, flow⟩ := forwards.flow gvk
  have record : w.path.entered gvk = w.shop.history.enteredOf gvk :=
    History.enteredOf_filter _ _
  have filters : w.plan.filterTable = plan.filterTable := forwards.table
  rw [← record, ← filters]
  constructor
  · obtain ⟨through, front, entered⟩ := flow.front
    refine ⟨through, front.trans ?_, entered⟩
    rw [streamItems, flow.items]
    exact List.prefix_append ..
  · intro t q found kind kept unfired unclosed room idle
    subst kind
    have pump : w.path.role t = .pump q := role_eq_pump.2 found
    have stage := flow.stage t q pump rfl
    have waiting := waiting_of_idle forwards idle room
    -- at rest a pump has ended or listens, so it has taken everything that arrived
    suffices all : w.path.entered q.gvk = taken.filterMap (w.path.table.event? q.gvk) ∧
        (w.path.feed q.gvk).arrivals = [] by
      rw [streamItems, flow.items, all.2, Tracker.items, List.append_nil]
      exact all.1
    obtain ended | ⟨-, -, ⟨state, arrivals, -⟩ | ⟨e, -, there⟩⟩ :=
      forwards.awake.rests t (by simp [idle_iff.1 idle]) q pump
    · simp only [Stage, ended] at stage
      obtain ⟨entered, arrivals, -⟩ := stage kept unfired unclosed
      exact ⟨entered, arrivals⟩
    · simp only [Stage, state] at stage
      exact ⟨stage, arrivals⟩
    · rw [path_channel, waiting] at there
      simp at there

/-- A stream delivers an object, a passing error, a report of an object, a
notification without an object, and another report, through room for one change. -/
def crowded : List (Happening Command) :=
  .command .run :: [0, 0, 1, 1, 2, 2, 3].map .move ++
  [.command (.arrive configMap (.item (.ok .hydrated))),
    .command (.arrive configMap (.item (.ok (.change (.added (namedObject "a" "1")))))),
    .command (.arrive configMap (.item (.error .cancelled))),
    .command (.arrive configMap (.report (.applied (namedObject "b" "1")))),
    .command (.arrive configMap (.item (.ok (.change (.deleted (.unseen "x" none)))))),
    .command (.arrive configMap (.report (.applied (namedObject "b" "2"))))] ++
  [3, 3, 3, 3, 3, 2, 1, 1, 0, 0, 0, 3, 3, 3, 3, 4, 1, 1, 3, 3, 1, 1].map .move

theorem entered_of_crowded :
    ∃ past w, conduct.Run (ofPlan slowOptions everyConfigMap) past w ∧
      w.tasks[3]? = some (.pump { gvk := configMap, hydrated := true }) ∧ w.fired = false ∧
      w.channel.closed = false ∧
      w.channel.buffer.length < Nat.max 1 slowOptions.capacity ∧ Cooperative.Idle w ∧
      (streamItems configMap past).length = 6 ∧
      (w.shop.history.enteredOf configMap).map (·.reference.name) = ["a", "b", "b"] ∧
      w.shop.history.enteredOf configMap =
        (streamItems configMap past).filterMap (everyConfigMap.filterTable.event? configMap) := by
  let w₀ := ofPlan slowOptions everyConfigMap
  have begun : conduct.Run w₀ [] w₀ := .start
  have run := begun.follow crowded (by decide +kernel)
  obtain ⟨found, unfired, unclosed, room, idle, items, names⟩ :
      let past := ((conduct.follow [] w₀ crowded).get (by decide +kernel)).1
      let w := ((conduct.follow [] w₀ crowded).get (by decide +kernel)).2
      w.pump? 3 = some { gvk := configMap, hydrated := true } ∧ w.fired = false ∧
        w.channel.closed = false ∧
        w.channel.buffer.length < Nat.max 1 slowOptions.capacity ∧ w.shop.schedule.ready = [] ∧
        (streamItems configMap past).length = 6 ∧
        (w.shop.history.enteredOf configMap).map (·.reference.name) = ["a", "b", "b"] := by
    decide +kernel
  have pump := role_eq_pump.1 (pump?_eq_some.1 found)
  have rests := idle_iff.2 idle
  have all := (entered_of_run run configMap).2 3 _ pump rfl rfl unfired unclosed room rests
  exact ⟨_, _, run, pump, unfired, unclosed, room, rests, items, names, all⟩

end Engine

end ResourceWatch
