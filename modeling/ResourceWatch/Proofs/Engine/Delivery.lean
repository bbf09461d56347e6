import ResourceWatch.Proofs.Engine.Conduct

/-!
# Changes reach the reconciler

A change that has entered the event channel is in the channel until the source
hands its key to the work queue. From then on the key is dirty until a worker is
handed it, and that is when a reconcile of the key begins. So when the channel is
empty, no key waits and none is in flight, every change that ever entered was
followed by a reconcile of its key that began later.

Only a token that has fired breaks this chain: the source then lets go of what is
in the channel, and the work queue takes no more.
-/

namespace ResourceWatch

theorem Notification.reference_kind {n : Notification} {gvk : Gvk} {ref : Reference}
    (h : n.reference (some gvk) = .ok ref) : ref.kind = some gvk := by
  unfold reference at h
  split at h <;> try simp at h
  all_goals
    split at h
    · rename_i found
      cases h
      simp only [Reference.ofObject?, Option.map_eq_some_iff] at found
      obtain ⟨name, -, rfl⟩ := found
      rfl
    · simp at h

theorem FilterTable.event?_kind {table : FilterTable} {gvk : Gvk} {item : StreamItem}
    {e : ChangeEvent} (h : table.event? gvk item = some e) : e.reference.kind = some gvk := by
  unfold event? at h
  split at h
  · rename_i n
    cases reference : n.reference (some gvk) with
    | error fault => simp [reference, Except.toOption] at h
    | ok ref =>
        simp only [reference, Except.toOption, Option.bind_eq_bind, Option.bind_some,
          Option.bind_eq_some_iff, Option.pure_def, Option.some.injEq] at h
        obtain ⟨f, -, rfl⟩ := h
        exact Notification.reference_kind reference
  · simp at h

namespace Path

variable {p p' : Path} {t : TaskId} {key : String} {alone : Prop}

/-- Only handing out a key makes a worker hold one. -/
theorem Step.holder {result : ReconcileResult} (step : Step alone p p')
    (h : p'.role t = .holder key result) : p.role t = .holder key result := by
  have aside : ∀ q, Role.holder key result ≠ .pump q := by simp
  cases step <;>
    simp only [reschedule_role, withChannel_role, withQueue_role, note_role, feedAt_role,
      withStore_role, become_role_eq_iff, abandon_role_eq_iff aside] at h <;>
    grind

/-- The keys in flight are those that workers hold, and no two hold the same. -/
structure Working (p : Path) : Prop where
  consistent : p.queue.Consistent
  held : ∀ t key result, p.role t = .holder key result → key ∈ p.queue.inFlight
  single : ∀ t u key result result', p.role t = .holder key result →
    p.role u = .holder key result' → t = u

theorem Step.queue_cases (step : Step alone p p') :
    p'.queue = p.queue ∨ (∃ key, p'.queue = (p.queue.push key).1) ∨
      (p'.queue = p.queue.close ∧ (alone → p.fired = true)) ∨
      ∃ t key result, p.role t = .holder key result ∧ p'.role t = .bystander ∧
        p'.queue = (p.queue.finish key).1 := by
  cases step with
  | push key => exact .inr (.inl ⟨key, rfl⟩)
  | hand e key => exact .inr (.inl ⟨key.encode, rfl⟩)
  | close free => exact .inr (.inr (.inl ⟨rfl, free⟩))
  | conclude t key result time holder =>
      exact .inr (.inr (.inr ⟨t, key, result, holder, become_role_self, rfl⟩))
  | _ => exact .inl rfl

theorem Working.step (h : p.Working) (step : Step alone p p') : p'.Working := by
  have single (t u : TaskId) (key : String) (r r' : ReconcileResult)
      (ht : p'.role t = .holder key r) (hu : p'.role u = .holder key r') : t = u :=
    h.single t u key r r' (step.holder ht) (step.holder hu)
  have held (t : TaskId) (key : String) (r : ReconcileResult) (ht : p'.role t = .holder key r) :
      key ∈ p.queue.inFlight := h.held t key r (step.holder ht)
  obtain same | ⟨key, same⟩ | ⟨same, -⟩ | ⟨t, key, r, holder, free, same⟩ := step.queue_cases
  · exact ⟨same ▸ h.consistent, fun t key r ht => same ▸ held t key r ht, single⟩
  · refine ⟨same ▸ h.consistent.push key, ?_, single⟩
    intro t k r ht
    rw [same, WorkQueue.push_inFlight]
    exact held t k r ht
  · exact ⟨same ▸ h.consistent.close, fun t key r ht => same ▸ held t key r ht, single⟩
  · have handed := h.held t key r holder
    refine ⟨same ▸ h.consistent.finish handed, ?_, single⟩
    intro u k r' hu
    rw [same, WorkQueue.finish_inFlight]
    have other : k ≠ key := by
      rintro rfl
      obtain rfl := h.single t u k r r' holder (step.holder hu)
      simp [free] at hu
    exact (List.mem_erase_of_ne other).2 (held u k r' hu)

theorem Working.take (h : p.Working) (take : Take t key p p') : p'.Working := by
  obtain ⟨queue, time, result, asking, taken, -⟩ := take
  have new : key ∉ p.queue.inFlight := (h.consistent.of_take? taken).2.2
  have flight := h.consistent.take?_inFlight taken
  have holder {u : TaskId} {k : String} {r : ReconcileResult}
      (hu : (p.become t (.holder key result)).role u = .holder k r) :
      (u = t ∧ key = k) ∨ (k ≠ key ∧ p.role u = .holder k r) := by
    obtain ⟨rfl, same⟩ | ⟨-, hu⟩ := become_role_eq_iff.1 hu
    · exact .inl ⟨rfl, (Role.holder.inj same).1⟩
    · exact .inr ⟨fun same => new (same ▸ h.held u k r hu), hu⟩
  refine ⟨h.consistent.take? taken, ?_, ?_⟩
  · intro u k r hu
    simp only [note_queue, become_queue, withQueue_queue, flight]
    obtain ⟨-, rfl⟩ | ⟨-, hu⟩ := holder hu
    · simp
    · exact List.mem_append_left _ (h.held u k r hu)
  · intro u v k r r' hu hv
    obtain ⟨rfl, rfl⟩ | ⟨other, hu⟩ := holder hu <;>
      obtain ⟨rfl, same⟩ | ⟨other', hv⟩ := holder hv
    · rfl
    · exact absurd rfl other'
    · exact absurd same.symm other
    · exact h.single u v k r r' hu hv

theorem Working.inflow {gvk : Gvk} {f : Feed} (h : p.Working) (inflow : Inflow gvk f p p') :
    p'.Working := by
  obtain ⟨queue, role, -⟩ := inflow.keeps
  refine ⟨queue ▸ h.consistent, ?_, ?_⟩
  · rw [queue, role]
    exact h.held
  · rw [role]
    exact h.single

/-- A change is about an object of a known kind. -/
def Known (e : ChangeEvent) : Prop := (ObjectKey.ofReference? e.reference).isSome

/-- Every change that enters the channel is about an object of a known kind. -/
structure Named (p : Path) : Prop where
  recorded : ∀ e, .entered e ∈ p.record → Known e
  sent : ∀ t q e, p.role t = .pump q → q.state = .sending e → Known e

/-- A change that has entered the channel is still there, or its key is dirty, or a
reconcile of its key has begun since. -/
def Followed (p : Path) : Prop :=
  ∀ before e after key, p.record = before ++ .entered e :: after →
    ObjectKey.ofReference? e.reference = some key →
    (∃ time, .began key.encode time ∈ after) ∨ e ∈ p.channel.buffer ∨ key.encode ∈ p.queue.dirty

theorem receive?_eq_some {c c' : Channel} {e : ChangeEvent} {woken : Option TaskId} :
    c.receive? = some (e, c', woken) ↔
      ∃ rest, c.buffer = e :: rest ∧ ({ c with buffer := rest } : Channel).grant = (c', woken) := by
  rw [Channel.receive?]
  cases c.buffer with
  | nil => simp
  | cons e' rest => simp [Prod.ext_iff, and_assoc]

@[simp] theorem grant_buffer (c : Channel) : c.grant.1.buffer = c.buffer := by
  rw [Channel.grant]
  split <;> rfl

@[simp] theorem withdraw_buffer (c : Channel) (t : TaskId) :
    (c.withdraw t).1.buffer = c.buffer := by
  rw [Channel.withdraw]
  split
  · exact grant_buffer _
  · rfl

theorem receive?_buffer {c c' : Channel} {e : ChangeEvent} {woken : Option TaskId}
    (received : c.receive? = some (e, c', woken)) : c.buffer = e :: c'.buffer := by
  obtain ⟨rest, buffer, granted⟩ := receive?_eq_some.1 received
  have same := grant_buffer { c with buffer := rest }
  rw [granted] at same
  exact buffer.trans (by rw [same])

/-- What a step does to the changes that are in the channel, and to the record. -/
inductive Carry (alone : Prop) (p p' : Path) : Prop where
  /-- Nothing, except that a reconcile may have had a result. -/
  | stay (buffer : p'.channel.buffer = p.channel.buffer)
      (record : p'.record = p.record ∨
        ∃ key result time, p'.record = p.record ++ [.reconciled key result time])
  /-- A change of a pump enters the channel. -/
  | enter (t : TaskId) (q : Pump) (e : ChangeEvent) (pump : p.role t = .pump q)
      (state : q.state = .sending e) (buffer : p'.channel.buffer = p.channel.buffer ++ [e])
      (record : p'.record = p.record ++ [.entered e]) (queue : p'.queue = p.queue)
  /-- The first change leaves the channel. -/
  | leave (e : ChangeEvent) (buffer : p.channel.buffer = e :: p'.channel.buffer)
      (record : p'.record = p.record)
      (handed : (∃ key, ObjectKey.ofReference? e.reference = some key ∧
          p'.queue = (p.queue.push key.encode).1) ∨
        (alone → ObjectKey.ofReference? e.reference = none))
  /-- All changes are let go of. -/
  | drop (free : alone → p.fired = true ∨ p.channel.buffer = [])
      (buffer : p'.channel.buffer = []) (record : p'.record = p.record)

theorem Step.carry (step : Step alone p p') : Carry alone p p' := by
  cases step with
  | send t q e pump ready state unfired kept unclosed room =>
      exact .enter t q e pump state rfl rfl rfl
  | finish => exact .stay (by simp) (.inl rfl)
  | hand e key c woken schedule received known =>
      exact .leave e (receive?_buffer received) rfl (.inl ⟨key, known, rfl⟩)
  | skip e c woken schedule received unknown =>
      exact .leave e (receive?_buffer received) rfl (.inr unknown)
  | stop schedule free => exact .drop (fun a => (free a).imp_right (·.1)) rfl rfl
  | conclude t key result time => exact .stay rfl (.inr ⟨key, result, time, rfl⟩)
  | _ => exact .stay rfl (.inl rfl)

/-- A pump with a change had it before, or has taken it from its stream. -/
theorem Step.sending {e : ChangeEvent} {q' : Pump} (step : Step alone p p')
    (pump : p'.role t = .pump q') (state : q'.state = .sending e) :
    (∃ q, p.role t = .pump q ∧ q.state = .sending e) ∨
      ∃ gvk item, p.table.event? gvk item = some e := by
  have turned {u : TaskId} {r : Role} (pump : (p.become u r).role t = .pump q')
      (new : r = .pump q' → ∃ gvk item, p.table.event? gvk item = some e) :
      (∃ q, p.role t = .pump q ∧ q.state = .sending e) ∨
        ∃ gvk item, p.table.event? gvk item = some e := by
    obtain ⟨-, same⟩ | ⟨-, was⟩ := become_role_eq_iff.1 pump
    · exact .inr (new same)
    · exact .inl ⟨q', was, state⟩
  have marked {ts : List TaskId} (pump : (p.abandon ts).role t = .pump q') :
      ∃ q, p.role t = .pump q ∧ q.state = .sending e := by
    obtain was | ⟨q, was, -, rfl⟩ := role_of_abandon pump
    · exact ⟨q', was, state⟩
    · exact ⟨q, was, state⟩
  cases step with
  | begin | await | «open» | fail | retire | record | conclude =>
      exact turned pump (by simp)
  | delegate t u starter new =>
      obtain ⟨-, same⟩ | ⟨-, was⟩ := become_role_eq_iff.1 pump
      · simp at same
      · exact turned was (by simp)
  | founder t opened spare pumps =>
      obtain ⟨-, same⟩ | ⟨-, was⟩ := become_role_eq_iff.1 pump
      · simp at same
      · exact .inl (marked was)
  | forsake pumps => exact .inl (marked pump)
  | stream | pass | send | finish =>
      refine turned pump ?_
      intro same
      cases same
      simp_all
  | pick u q item rest e' pump' ready st unfired kept next change =>
      refine turned pump ?_
      intro same
      cases same
      cases state
      exact ⟨_, item, change⟩
  | _ => exact .inl ⟨q', pump, state⟩

theorem Named.step (h : p.Named) (step : Step alone p p') : p'.Named := by
  have known {e : ChangeEvent} {gvk : Gvk} {item : StreamItem}
      (event : p.table.event? gvk item = some e) : Known e := by
    simp [Known, ObjectKey.ofReference?, FilterTable.event?_kind event]
  have sent (t : TaskId) (q : Pump) (e : ChangeEvent) (pump : p'.role t = .pump q)
      (state : q.state = .sending e) : Known e := by
    obtain ⟨q, was, state⟩ | ⟨gvk, item, event⟩ := step.sending pump state
    · exact h.sent t q e was state
    · exact known event
  refine ⟨?_, sent⟩
  intro e he
  cases step.carry with
  | stay buffer record =>
      obtain same | ⟨key, result, time, same⟩ := record
      · exact h.recorded e (same ▸ he)
      · rw [same] at he
        exact h.recorded e (by simpa using he)
  | enter t q e' pump state buffer record =>
      rw [record, List.mem_append, List.mem_singleton] at he
      obtain he | he := he
      · exact h.recorded e he
      · cases he
        exact h.sent t q e pump state
  | leave _ _ record | drop _ _ record => exact h.recorded e (record ▸ he)

theorem Named.take (h : p.Named) (take : Take t key p p') : p'.Named := by
  obtain ⟨queue, time, result, asking, taken, -⟩ := take
  refine ⟨fun e he => h.recorded e (by simpa using he), ?_⟩
  intro u q e pump state
  obtain ⟨-, other⟩ | ⟨-, was⟩ := become_role_eq_iff.1 pump
  · simp at other
  · exact h.sent u q e was state

theorem Named.inflow {gvk : Gvk} {f : Feed} (h : p.Named) (inflow : Inflow gvk f p p') :
    p'.Named := by
  obtain ⟨-, role, record⟩ := inflow.keeps
  refine ⟨?_, ?_⟩
  · rw [record]
    exact h.recorded
  · rw [role]
    exact h.sent

theorem Step.unfired (step : Step alone p p') (unfired : p'.fired = false) : p.fired = false := by
  cases step with
  | fire => simp at unfired
  | _ => exact unfired

theorem Step.dirty (step : Step alone p p') (dirty : key ∈ p.queue.dirty) :
    key ∈ p'.queue.dirty := by
  obtain same | ⟨k, same⟩ | ⟨same, -⟩ | ⟨t, k, r, -, -, same⟩ := step.queue_cases
  · exact same ▸ dirty
  · rw [same]
    exact WorkQueue.mem_push_dirty.2 (.inl dirty)
  · rw [same]
    exact dirty
  · rw [same, WorkQueue.finish_dirty]
    exact dirty

/-- As long as the token has not fired, no step loses a change. -/
theorem Followed.step (h : p.Followed) (lone : p.Lone)
    (unfired : p'.fired = false) (step : Step True p p') : p'.Followed := by
  have unfired := step.unfired unfired
  have open_queue : p.queue.closed = false := by
    by_contra closed
    simp [lone.working (by simpa using closed)] at unfired
  intro before e after key record known
  cases carry : step.carry with
  | stay buffer same =>
      rw [buffer]
      obtain same | ⟨k, result, time, same⟩ := same
      · exact (h before e after key (same ▸ record) known).imp_right (.imp_right step.dirty)
      · rw [same] at record
        obtain ⟨-, other, -⟩ | ⟨rest, rfl, earlier⟩ := append_singleton_eq_append_cons.1 record
        · simp at other
        · refine (h before e rest key earlier known).imp ?_ (.imp_right step.dirty)
          exact fun ⟨time, began⟩ => ⟨time, List.mem_append_left _ began⟩
  | enter t q e' pump state buffer same queue =>
      rw [same] at record
      rw [buffer, queue]
      obtain ⟨-, entered, -⟩ | ⟨rest, rfl, earlier⟩ := append_singleton_eq_append_cons.1 record
      · cases entered
        exact .inr (.inl (by simp))
      · refine (h before e rest key earlier known).imp ?_ (.imp_left (List.mem_append_left _))
        exact fun ⟨time, began⟩ => ⟨time, List.mem_append_left _ began⟩
  | leave first buffer same handed =>
      rw [same] at record
      refine (h before e after key record known).imp_right ?_
      intro there
      rw [buffer, List.mem_cons] at there
      obtain (rfl | there) | dirty := there
      · obtain ⟨k, known', queue⟩ | unknown := handed
        · obtain rfl : key = k := Option.some.inj (known.symm.trans known')
          refine .inr ?_
          rw [queue]
          exact WorkQueue.mem_push_dirty.2 (.inr ⟨rfl, open_queue⟩)
        · simp [unknown trivial] at known
      · exact .inl there
      · exact .inr (step.dirty dirty)
  | drop free buffer same =>
      rw [same] at record
      refine (h before e after key record known).imp_right ?_
      intro there
      obtain there | dirty := there
      · obtain fired | empty := free trivial
        · simp [unfired] at fired
        · simp [empty] at there
      · exact .inr (step.dirty dirty)

/-- A key that is handed out is no longer dirty, but a reconcile of it begins. -/
theorem Followed.take (h : p.Followed) (working : p.Working) (take : Take t key p p') :
    p'.Followed := by
  obtain ⟨queue, time, result, asking, taken, -⟩ := take
  intro before e after k record known
  obtain ⟨-, other, -⟩ | ⟨rest, rfl, earlier⟩ := append_singleton_eq_append_cons.1 record
  · simp at other
  · obtain ⟨at_, began⟩ | there | dirty := h before e rest k earlier known
    · exact .inl ⟨at_, List.mem_append_left _ began⟩
    · exact .inr (.inl there)
    · by_cases same : k.encode = key
      · subst same
        exact .inl ⟨time, by simp⟩
      · exact .inr (.inr ((working.consistent.mem_take?_dirty taken).2 ⟨same, dirty⟩))

theorem Followed.inflow {gvk : Gvk} {f : Feed} (h : p.Followed) (inflow : Inflow gvk f p p') :
    p'.Followed := by
  obtain ⟨queue, -, record⟩ := inflow.keeps
  intro before e after k recorded known
  rw [inflow.untouched.channel, queue]
  exact h before e after k (record.symm.trans recorded) known

end Path

namespace Engine

open ResourceWatch.Path

variable {options : EngineOptions} {plan : WatchPlan} {past : Past Engine Command} {w : Engine}

/-- At every moment of a pipeline that runs alone, the keys are in order and, unless
the token has fired, every change that has entered the channel is followed. -/
theorem followed_of_run (run : aloneConduct.Run (ofPlan options plan) past w) :
    w.path.Named ∧ w.path.Working ∧ (w.fired = false → w.path.Followed) := by
  refine (path_of_run True (P := fun _ p => p.Named ∧ p.Working ∧ (p.fired = false → p.Followed))
    (fun _ _ => rfl) ?_ ?_ (fun _ => lone_ofPlan options plan) ?_ ?_ ?_ ?_ run).1
  · intro past c allowed
    refine ⟨?_, fun _ => allowed⟩
    cases c <;> simp_all [Command.observes, aloneConduct, Command.leavesAlone]
  · refine ⟨⟨?_, ?_⟩, ⟨WorkQueue.consistent_empty, ?_, ?_⟩, ?_⟩
    · simp [ofPlan]
    · simp
    · simp
    · simp
    · intro _ before e after key record
      simp at record
  · intro _ p p' h lone step
    refine ⟨h.1.step step, h.2.1.step step, ?_⟩
    intro unfired
    exact (h.2.2 (step.unfired unfired)).step (lone trivial) unfired step
  · exact fun h _ _ => h
  · intro past w t key p' h handed take
    refine ⟨h.1.take take, h.2.1.take take, ?_⟩
    intro unfired
    exact (h.2.2 (take.untouched.fired.symm.trans unfired)).take h.2.1 take
  · intro past w c gvk h _ comes inflow
    refine ⟨h.1.inflow inflow, h.2.1.inflow inflow, ?_⟩
    intro unfired
    exact (h.2.2 (inflow.untouched.fired.symm.trans unfired)).inflow inflow

/-- In a pipeline that runs alone nothing is lost between the event channel and the
reconciler. Whenever the token has not fired, the channel is empty, no key waits and
none is in flight, every change that ever entered the channel is about an object that
has a key, and was followed by the begin of a reconcile of that key. -/
theorem began_after_entered (run : aloneConduct.Run (ofPlan options plan) past w)
    (unfired : w.fired = false) (drained : w.channel.buffer = [])
    (rested : w.shop.queue.queue = []) (free : w.shop.queue.inFlight = [])
    {before after : History} {e : ChangeEvent}
    (entered : w.shop.history = before ++ .entered e :: after) :
    ∃ key time, ObjectKey.ofReference? e.reference = some key ∧
      .began key.encode time ∈ after := by
  obtain ⟨named, working, followed⟩ := followed_of_run run
  have record : w.path.record = before.filter Occurrence.isMilestone ++
      .entered e :: after.filter Occurrence.isMilestone := by
    rw [path_record, entered, List.filter_append]
    rfl
  have clean : w.shop.queue.dirty = [] := working.consistent.dirty_eq_nil rested free
  obtain ⟨key, known⟩ := Option.isSome_iff_exists.1 (named.recorded e (by rw [record]; simp))
  obtain ⟨time, began⟩ | there | dirty := followed unfired _ e _ key record known
  · exact ⟨key, time, known, (List.mem_filter.1 began).1⟩
  · simp [drained] at there
  · simp [clean] at dirty

/-- Room for one change, and reconciles that take five milliseconds. -/
def slowOptions : EngineOptions where
  capacity := 1
  reconciler _ := .answering 0 fun _ _ => (5, .ok .notFound)

/-- An object changes while an earlier change of it is being reconciled. -/
def changedInFlight : List (Happening Command) :=
  .command .run :: [0, 0, 1, 1, 2, 2, 3].map .move ++
  [.command (.arrive configMap (.item (.ok .hydrated))),
    .command (.arrive configMap (.item (.ok (.change (.added (namedObject "a" "1")))))),
    .command (.arrive configMap (.item (.ok (.change (.updated (namedObject "a" "2"))))))] ++
  [3, 3, 3, 2, 1, 1, 0, 0, 0, 3, 3, 4, 1, 1].map .move ++
  .elapse 5 :: [4, 4].map .move ++ .elapse 10 :: [4, 4, 4].map .move

theorem began_after_changedInFlight :
    ∃ past w before after e key time,
      aloneConduct.Run (ofPlan slowOptions everyConfigMap) past w ∧
      w.fired = false ∧ w.channel.buffer = [] ∧ w.shop.queue.queue = [] ∧
      w.shop.queue.inFlight = [] ∧ w.shop.history = before ++ .entered e :: after ∧
      e.reference.resourceVersion = some "2" ∧
      ObjectKey.ofReference? e.reference = some key ∧ .began key.encode time ∈ after := by
  let w₀ := ofPlan slowOptions everyConfigMap
  have begun : aloneConduct.Run w₀ [] w₀ := .start
  have run := begun.follow changedInFlight (by decide +kernel)
  obtain ⟨unfired, drained, rested, free, e, he, version⟩ :
      let w := ((aloneConduct.follow [] w₀ changedInFlight).get (by decide +kernel)).2
      w.fired = false ∧ w.channel.buffer = [] ∧ w.shop.queue.queue = [] ∧
        w.shop.queue.inFlight = [] ∧
        ∃ e ∈ w.shop.history.entered, e.reference.resourceVersion = some "2" := by
    decide +kernel
  have entered : .entered e ∈
      ((aloneConduct.follow [] w₀ changedInFlight).get (by decide +kernel)).2.shop.history := by
    obtain ⟨o, ho, same⟩ := List.mem_filterMap.1 he
    cases o <;> simp_all
  obtain ⟨before, after, split⟩ := List.append_of_mem entered
  obtain ⟨key, time, known, began⟩ := began_after_entered run unfired drained rested free split
  exact ⟨_, _, before, after, e, key, time, run, unfired, drained, rested, free, split, version,
    known, began⟩

end Engine

end ResourceWatch
