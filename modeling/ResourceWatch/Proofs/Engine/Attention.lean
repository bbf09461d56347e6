import ResourceWatch.Proofs.Engine.Delivery

/-!
# What is done heeds the others

A task that is not ready waits: a source for a change, whoever waits for streams for
the next of them, the pipeline for a task that it depends on, a worker for the bell.
`Blocked` says for each task when going on would get it no further.

Whatever is done to the engine heeds the tasks that do not do it: a task that was
blocked still is, or is made ready. A pump that is told to end is made ready, and so
is every new task.
-/

namespace ResourceWatch

/-- What startup came to, if a task is a startup that has ended. -/
def EngineTask.result? : EngineTask → Option (Except WatchError Registration)
  | .startup (.ended result) => some result
  | _ => none

/-- Whether a task is a pump that is neither hydrated nor ended. -/
def EngineTask.isUntold : EngineTask → Bool
  | .pump q => !q.hydrated && q.state != .ended
  | _ => false

namespace Engine

variable {w w' w'' : Engine} {t u : TaskId} {task new : EngineTask}

/-- A pump has told nothing yet to whoever waits for its first full list. -/
def Untold (w : Engine) (t : TaskId) : Prop :=
  ∃ task, w.tasks[t]? = some task ∧ task.isUntold = true

/-- The next of the streams that are waited for has told nothing yet. -/
def Pends (w : Engine) : List (Gvk × TaskId) → Prop
  | [] => False
  | (_, t) :: _ => w.Untold t

/-- There is no change for a source, and it will be told when there is one or when
there can be none. A channel that was closed over the head of the source is of no use
to it. -/
def Dry (w : Engine) (t : TaskId) : Prop :=
  w.channel.buffer = [] ∧
    (w.channel.closed = true ∨ w.channel.listener = some t ∧ w.hasSenders = true)

/-- A task waits until somebody else does not use the kept registration any more. -/
def Queues (w : Engine) (t : TaskId) : Prop := t ∈ w.lock ∧ w.lock.head? ≠ some t

/-- Going on would get a task no further. Whoever waits for a time is made ready by its
timer, and what a pump waits for is said by the path. -/
def Blocked (w : Engine) (t : TaskId) : EngineTask → Prop
  | .source .fresh _ | .startup .fresh | .pipeline .fresh | .delayed _ (.fresh _) => False
  | .source .running _ => w.fired = false ∧ w.Dry t
  | .startup (.hydrating _ pending _) => w.fired = false ∧ w.Pends pending
  | .waiter none | .pipeline (.syncing ..) => w.gate.answer? w.fired = none
  | .hydration (.locking ..) | .join .locking => w.Queues t
  | .hydration (.hydrating pending _ _ token) => token.fired w.fired = false ∧ w.Pends pending
  | .join (.joining pumps) => ∃ u ∈ pumps, w.hasEnded u = false
  | .pipeline (.failing _ startup) | .pipeline (.opening _ startup) =>
    w.startupResult? startup = none
  | .pipeline (.draining source _) => w.hasEnded source = false
  | .pipeline (.running source worker _) => w.stopReason? source worker = none
  | .pipeline (.stopping source worker r _) =>
    w.hasEnded source = false ∨ w.hasEnded worker = false ∨ ∃ u ∈ r.pumps, w.hasEnded u = false
  | .worker .asking => t ∈ w.shop.bell.waiting
  | _ => True

/-- What a task tells whoever waits for it has not changed for the better. -/
structure NoNews (w w' : Engine) (t : TaskId) : Prop where
  ended : w.hasEnded t = false → w'.hasEnded t = false
  result : w.startupResult? t = none → w'.startupResult? t = none
  untold : w.Untold t → w'.Untold t

theorem NoNews.of_eq (same : w'.tasks[t]? = w.tasks[t]?) : NoNews w w' t :=
  ⟨fun h => by rw [hasEnded, same]; exact h, fun h => by rw [startupResult?, same]; exact h,
    fun h => by rw [Untold, same]; exact h⟩

theorem startupResult?_eq (w : Engine) (t : TaskId) :
    w.startupResult? t = w.tasks[t]?.bind EngineTask.result? := by
  rw [startupResult?]
  cases w.tasks[t]? with
  | none => rfl
  | some task => cases task <;> first | rfl | (rename_i state; cases state <;> rfl)

theorem eq_of_startupResult {outcome : Except WatchError Registration}
    (told : w.startupResult? t = some outcome) :
    w.tasks[t]? = some (.startup (.ended outcome)) := by
  unfold startupResult? at told
  split at told
  · cases told
    assumption
  · cases told

/-- A task goes on and tells nothing by that. -/
theorem NoNews.of_turn (found : w.tasks[t]? = some task) (turned : w'.tasks[t]? = some new)
    (ended : task.isEnded = false → new.isEnded = false)
    (result : task.result? = none → new.result? = none)
    (untold : task.isUntold = true → new.isUntold = true) : NoNews w w' t := by
  refine ⟨?_, ?_, ?_⟩
  · simpa [hasEnded, found, turned] using ended
  · simpa [startupResult?_eq, found, turned] using result
  · rintro ⟨task', found', told⟩
    obtain rfl := Option.some.inj (found.symm.trans found')
    exact ⟨new, turned, untold told⟩

theorem NoNews.of_new (missing : w.tasks[t]? = none) (begins : w'.tasks[t]? = some new)
    (result : new.result? = none) : NoNews w w' t := by
  refine ⟨?_, ?_, ?_⟩
  · simp [hasEnded, missing]
  · exact fun _ => by simpa [startupResult?_eq, begins] using result
  · rintro ⟨task, found, -⟩
    simp [missing] at found

theorem stopReason?_eq_none {source worker : TaskId} :
    w.stopReason? source worker = none ↔
      w.fired = false ∧ w.hasEnded source = false ∧ w.hasEnded worker = false := by
  rw [stopReason?]
  cases w.fired <;> cases w.hasEnded source <;> cases w.hasEnded worker <;> simp

theorem stopReason_cases {source worker : TaskId} {result : PipelineResult}
    (reason : w.stopReason? source worker = some result) :
    w.fired = true ∧ result = .ok () ∨
      w.hasEnded source = true ∧ result = .error (.task .sourceStopped) ∨
      w.hasEnded worker = true ∧ result = .error (.task .workerStopped) := by
  unfold stopReason? at reason
  split at reason
  · exact .inl ⟨‹_›, (Option.some.inj reason).symm⟩
  · split at reason
    · exact .inr (.inl ⟨‹_›, (Option.some.inj reason).symm⟩)
    · split at reason
      · exact .inr (.inr ⟨‹_›, (Option.some.inj reason).symm⟩)
      · cases reason

/-- What blocks a task goes on to block it, as long as nobody that it waits for tells
anything. -/
theorem Blocked.keep (h : w.Blocked t task)
    (token : task.heedsToken = true → w'.fired = w.fired)
    (gate : task.heedsGate = true → w'.gate = w.gate)
    (news : ∀ u, task.awaits u = true → NoNews w w' u)
    (dry : ∀ recording, task = .source .running recording → w.Dry t → w'.Dry t)
    (queues : w.Queues t → w'.Queues t)
    (bell : t ∈ w.shop.bell.waiting → t ∈ w'.shop.bell.waiting) : w'.Blocked t task := by
  have pends {pending : List (Gvk × TaskId)}
      (heeded : ∀ e ∈ pending, NoNews w w' e.2) (h : w.Pends pending) : w'.Pends pending := by
    cases pending with
    | nil => exact h
    | cons e rest => exact (heeded e (List.mem_cons_self ..)).untold h
  cases task with
  | pump => trivial
  | delayed key push =>
      cases push with
      | fresh => exact h
      | sleeping | pushed => trivial
  | source state recording =>
      cases state with
      | fresh | ended => exact h
      | running => exact ⟨(token rfl).trans h.1, dry recording rfl h.2⟩
  | startup state =>
      cases state with
      | fresh | ended => exact h
      | hydrating r pending due =>
          refine ⟨(token rfl).trans h.1, pends (fun e member => news e.2 ?_) h.2⟩
          exact List.any_eq_true.2 ⟨e, member, by simp⟩
  | waiter answer =>
      cases answer with
      | none =>
          simp only [Blocked, token rfl, gate rfl] at h ⊢
          exact h
      | some => trivial
  | hydration call =>
      cases call with
      | locking => exact queues h
      | hydrating pending limit due callToken =>
          refine ⟨?_, pends (fun e member => news e.2 ?_) h.2⟩
          · cases callToken with
            | shared => exact (token rfl).trans h.1
            | own => exact h.1
          · exact List.any_eq_true.2 ⟨e, member, by simp⟩
      | ended | dropped => trivial
  | join call =>
      cases call with
      | locking => exact queues h
      | joining pumps =>
          obtain ⟨v, member, live⟩ := h
          exact ⟨v, member, (news v (by simpa [EngineTask.awaits] using member)).ended live⟩
      | ended => trivial
  | pipeline state =>
      cases state with
      | fresh | ended => exact h
      | syncing =>
          simp only [Blocked, token rfl, gate rfl] at h ⊢
          exact h
      | failing source startup | opening source startup =>
          exact (news startup (by simp [EngineTask.awaits])).result h
      | draining source => exact (news source (by simp [EngineTask.awaits])).ended h
      | running source worker r =>
          obtain ⟨unfired, source_runs, worker_runs⟩ := stopReason?_eq_none.1 h
          refine stopReason?_eq_none.2 ⟨(token rfl).trans unfired, ?_, ?_⟩
          · exact (news source (by simp [EngineTask.awaits])).ended source_runs
          · exact (news worker (by simp [EngineTask.awaits])).ended worker_runs
      | stopping source worker r result =>
          obtain runs | runs | ⟨v, member, runs⟩ := h
          · exact .inl ((news source (by simp [EngineTask.awaits])).ended runs)
          · exact .inr (.inl ((news worker (by simp [EngineTask.awaits])).ended runs))
          · exact .inr (.inr ⟨v, member, (news v (by simp [EngineTask.awaits, member])).ended runs⟩)
  | worker state =>
      cases state with
      | asking => exact bell h
      | working | stopped => trivial

/-- What the tasks share besides the channel and the desk. -/
structure Terms where
  /-- What is to be watched. -/
  plan : WatchPlan
  /-- Whether the token has fired. -/
  fired : Bool
  /-- What the gate tells. -/
  gate : SyncState
  /-- Whether somebody beside the pumps may write to the channel. -/
  spare : Bool
  /-- The registration that is kept from outside. -/
  kept : Option Registration
  /-- Who uses the kept registration, and who waits to use it. -/
  lock : List TaskId
  /-- Whether the source has not begun and has not been given up. -/
  idleSource : Bool
  /-- Whether startup has not begun and has not been given up. -/
  idleStartup : Bool
  /-- The kinds whose streams cannot be opened, and why not. -/
  refusals : List (Gvk × WatchError)

/-- What the tasks share besides the channel and the desk. -/
def terms (w : Engine) : Terms :=
  ⟨w.plan, w.fired, w.gate, w.spare, w.kept, w.lock, w.idleSource, w.idleStartup,
    w.provider.failing⟩

/-- What is settled once stays so: the plan, a token that has fired, a gate that is open or
closed, a channel that is closed, a spare writer that is gone, and a source or a startup that
has begun or was given up. -/
structure Lasts (w w' : Engine) : Prop where
  plan : w'.plan = w.plan
  fired : w.fired = true → w'.fired = true
  gate : w.gate ≠ .pending → w'.gate = w.gate
  closed : w.channel.closed = true → w'.channel.closed = true
  spare : w.spare = false → w'.spare = false
  idleSource : w'.idleSource = true → w.idleSource = true
  idleStartup : w'.idleStartup = true → w.idleStartup = true

/-- What is as it was has lasted, whoever has the registration and whichever streams can be
opened. -/
theorem Lasts.of_terms
    (terms : { w'.terms with
      kept := w.kept, lock := w.lock, refusals := w.provider.failing } = w.terms)
    (closed : w.channel.closed = true → w'.channel.closed = true) : Lasts w w' :=
  ⟨congrArg Terms.plan terms, (congrArg Terms.fired terms).trans,
    fun _ => congrArg Terms.gate terms, closed, (congrArg Terms.spare terms).trans,
    (congrArg Terms.idleSource terms).symm.trans, (congrArg Terms.idleStartup terms).symm.trans⟩

theorem Lasts.trans (h : Lasts w w') (h' : Lasts w' w'') : Lasts w w'' := by
  refine ⟨h'.plan.trans h.plan, h'.fired ∘ h.fired, fun settled => ?_, h'.closed ∘ h.closed,
    h'.spare ∘ h.spare, h.idleSource ∘ h'.idleSource, h.idleStartup ∘ h'.idleStartup⟩
  have same := h.gate settled
  exact (h'.gate (same ▸ settled)).trans same

/-- Whatever is done heeds the tasks that do not do it. A task that is there stays what it
is, and is ready afterwards or blocked if it was, except that a pump may be told to end.
Whoever uses the kept registration still does. A new task is ready, and is of a sort; a
pump may have been told to end since it began. -/
structure Heeds (actor : Option TaskId) (born : EngineTask → Prop) (w w' : Engine) : Prop where
  desk : w.shop.toDesk.Serves w'.shop.toDesk
  lasts : Lasts w w'
  length : w.tasks.length ≤ w'.tasks.length
  others : ∀ u, actor ≠ some u → ∀ task, w.tasks[u]? = some task →
    (∃ q, task = .pump q ∧ q.state ≠ .ended ∧ u ∈ w'.shop.schedule.ready ∧
      w'.tasks[u]? = some (.pump { q with aborted := true })) ∨
    w'.tasks[u]? = some task ∧
      (u ∈ w'.shop.schedule.ready ∨ (w.Blocked u task → w'.Blocked u task))
  holds : ∀ u, actor ≠ some u → w.lock.head? = some u → w'.lock.head? = some u
  new : ∀ u task, w.tasks.length ≤ u → actor ≠ some u → w'.tasks[u]? = some task →
    u ∈ w'.shop.schedule.ready ∧ (born task ∨ ∃ q q', task = .pump q ∧ born (.pump q'))

variable {actor : Option TaskId} {born : EngineTask → Prop}

theorem Heeds.trans (h : Heeds actor born w w') (h' : Heeds actor born w' w'') :
    Heeds actor born w w'' := by
  refine ⟨h.desk.trans h'.desk, h.lasts.trans h'.lasts, Nat.le_trans h.length h'.length, ?_,
    fun u other => h'.holds u other ∘ h.holds u other, ?_⟩
  · intro u other task found
    obtain ⟨q, rfl, live, ready, told⟩ | ⟨same, keeps⟩ := h.others u other task found
    · obtain ⟨q', again, -, ready', told'⟩ | ⟨same, -⟩ := h'.others u other _ told
      · cases again
        exact .inl ⟨q, rfl, live, ready', told'⟩
      · exact .inl ⟨q, rfl, live, h'.desk.keeps u ready, same⟩
    · obtain ⟨q, rfl, live, ready, told⟩ | ⟨same', keeps'⟩ := h'.others u other task same
      · exact .inl ⟨q, rfl, live, ready, told⟩
      · refine .inr ⟨same', ?_⟩
        obtain ready | keeps := keeps
        · exact .inl (h'.desk.keeps u ready)
        · exact keeps'.imp_right fun keeps' => keeps' ∘ keeps
  · intro u task late other found
    by_cases known : u < w'.tasks.length
    · obtain ⟨ready, sort⟩ := h.new u _ late other (List.getElem?_eq_getElem known)
      refine ⟨h'.desk.keeps u ready, ?_⟩
      obtain ⟨q, pump, -, -, told⟩ | ⟨same, -⟩ :=
        h'.others u other _ (List.getElem?_eq_getElem known)
      · rw [told] at found
        obtain is | ⟨-, q', -, is⟩ := sort
        · exact .inr ⟨_, q, (Option.some.inj found).symm, pump ▸ is⟩
        · exact .inr ⟨_, q', (Option.some.inj found).symm, is⟩
      · rw [same] at found
        exact Option.some.inj found ▸ sort
    · exact h'.new u task (Nat.le_of_not_lt known) other found

/-- It is enough to look at those who are not made ready. -/
theorem Heeds.of (desk : w.shop.toDesk.Serves w'.shop.toDesk) (lasts : Lasts w w')
    (length : w'.tasks.length = w.tasks.length)
    (tasks : ∀ u, actor ≠ some u → w'.tasks[u]? = w.tasks[u]?)
    (holds : ∀ u, actor ≠ some u → w.lock.head? = some u → w'.lock.head? = some u)
    (blocked : ∀ u task, actor ≠ some u → w.tasks[u]? = some task →
      u ∉ w'.shop.schedule.ready → w.Blocked u task → w'.Blocked u task) :
    Heeds actor born w w' := by
  refine ⟨desk, lasts, Nat.le_of_eq length.symm,
    fun u other task found => .inr ⟨(tasks u other).trans found, ?_⟩, holds, ?_⟩
  · by_cases ready : u ∈ w'.shop.schedule.ready
    · exact .inl ready
    · exact .inr (blocked u task other found ready)
  · intro u task late _ found
    have known := (List.getElem?_eq_some_iff.1 found).1
    omega

/-- The bell is heeded wherever the desk serves everybody. -/
theorem waiting_of_serves (desk : w.shop.toDesk.Serves w'.shop.toDesk)
    (rests : u ∉ w'.shop.schedule.ready) (there : u ∈ w.shop.bell.waiting) :
    u ∈ w'.shop.bell.waiting := (desk.waits u there).resolve_right rests

/-- Where the tasks, the token, the gate and the lock are what they were, only the sources
are to be seen to. -/
theorem heeds_calm (desk : w.shop.toDesk.Serves w'.shop.toDesk) (lasts : Lasts w w')
    (tasks : w'.tasks = w.tasks) (fired : w'.fired = w.fired) (gate : w'.gate = w.gate)
    (lock : w'.lock = w.lock)
    (dry : ∀ u recording, actor ≠ some u → w.tasks[u]? = some (.source .running recording) →
      u ∉ w'.shop.schedule.ready → w.Dry u → w'.Dry u) : Heeds actor born w w' := by
  have holds (u : TaskId) (_ : actor ≠ some u) (head : w.lock.head? = some u) :
      w'.lock.head? = some u := lock ▸ head
  refine .of desk lasts (by rw [tasks]) (fun _ _ => by rw [tasks]) holds ?_
  intro u task other found rests blocked
  refine blocked.keep (fun _ => fired) (fun _ => gate) (fun v _ => .of_eq (by rw [tasks])) ?_ ?_
    (waiting_of_serves desk rests)
  · rintro recording rfl
    exact dry u recording other found rests
  · intro queues
    rw [Queues, lock]
    exact queues

/-- What is done leaves alone what the tasks wait for. -/
theorem heeds_alike (desk : w.shop.toDesk.Serves w'.shop.toDesk) (tasks : w'.tasks = w.tasks)
    (channel : w'.channel = w.channel)
    (terms : { w'.terms with refusals := w.provider.failing } = w.terms) :
    Heeds actor born w w' := by
  have plan := congrArg Terms.plan terms
  have fired := congrArg Terms.fired terms
  have gate := congrArg Terms.gate terms
  have spare := congrArg Terms.spare terms
  refine heeds_calm desk ⟨plan, fun h => fired.trans h, fun _ => gate, fun h => channel ▸ h,
    fun h => spare.trans h, fun h => (congrArg Terms.idleSource terms).symm.trans h,
    fun h => (congrArg Terms.idleStartup terms).symm.trans h⟩ tasks fired gate
    (congrArg Terms.lock terms) fun u _ _ _ _ dry => ?_
  rw [Dry, hasSenders, channel, tasks, show w'.spare = w.spare from spare]
  exact dry

theorem heeds_refl (w : Engine) : Heeds actor born w w := heeds_alike (.refl _) rfl rfl rfl

/-- Only the desk changes, or what no task waits for. -/
theorem heeds_onDesk {f : Desk → Desk} (serves : w.shop.toDesk.Serves (f w.shop.toDesk)) :
    Heeds actor born w (w.onDesk f) :=
  heeds_alike serves rfl rfl rfl

theorem heeds_wakeAll (w : Engine) (ts : List TaskId) : Heeds actor born w (w.wakeAll ts) :=
  heeds_onDesk (.of (Schedule.serves_wakeAll _ _) rfl rfl)

theorem heeds_note (w : Engine) (o : Occurrence) : Heeds actor born w (w.note o) :=
  heeds_onDesk (.of (.refl _) rfl rfl)

theorem heeds_log (w : Engine) (events : List LogEvent) : Heeds actor born w (w.log events) := by
  rw [log]
  induction events generalizing w with
  | nil => exact heeds_refl w
  | cons e events ih => exact (heeds_note w (.logged e)).trans (ih _)

theorem heeds_push (w : Engine) (key : String) : Heeds actor born w (w.onDesk (·.push key)) :=
  heeds_alike (Desk.serves_push _ _) rfl rfl rfl

theorem heeds_setTimer (w : Engine) (t : TaskId) (limit : Duration) :
    Heeds actor born w (w.setTimer t limit).1 :=
  heeds_alike (.of (Schedule.serves_setTimer _ _ _) rfl rfl) rfl rfl rfl

theorem heeds_clearTimers (w : Engine) (t : TaskId) : Heeds actor born w (w.clearTimers t) :=
  heeds_onDesk (.of (Schedule.serves_clearTimers _ _) rfl rfl)

@[simp] theorem noticeSilence_terms (w : Engine) : w.noticeSilence.terms = w.terms := by
  rw [noticeSilence]
  split <;> rfl

theorem noticeSilence_closed (w : Engine) :
    w.noticeSilence.channel.closed = w.channel.closed := by
  rw [noticeSilence]
  split <;> rfl

theorem hasSenders_iff :
    w.hasSenders = true ↔
      w.spare = true ∨
        ∃ (t : TaskId) (q : Pump), w.tasks[t]? = some (.pump q) ∧ q.state ≠ .ended := by
  rw [hasSenders, Bool.or_eq_true]
  refine or_congr_right ⟨fun live => ?_, fun pump => ?_⟩
  · obtain ⟨task, member, live⟩ := List.any_eq_true.1 live
    obtain ⟨t, found⟩ := List.mem_iff_getElem?.1 member
    cases task <;> simp [EngineTask.isLivePump] at live
    exact ⟨t, _, found, live⟩
  · obtain ⟨t, q, found, live⟩ := pump
    exact List.any_eq_true.2 ⟨_, List.mem_of_getElem? found, by simpa [EngineTask.isLivePump]⟩

/-- Changing the channel heeds everybody as long as no change enters it. -/
theorem heeds_channel {c : Channel} (buffer : w.channel.buffer = [] → c.buffer = [])
    (closed : w.channel.closed = true → c.closed = true)
    (listener : c.listener = w.channel.listener) :
    Heeds actor born w { w with channel := c } :=
  heeds_calm (.refl _) (.of_terms rfl closed) rfl rfl rfl rfl fun _ _ _ _ _ dry =>
    ⟨buffer dry.1, dry.2.imp closed fun told => ⟨listener.trans told.1, told.2⟩⟩

/-- A change enters the channel, and whoever waits for one is made ready. -/
theorem heeds_enter {c : Channel} (unclosed : w.channel.closed = false)
    (listener : c.listener = w.channel.listener) (o : Occurrence) :
    Heeds actor born w (({ w with channel := c }.note o).wakeListener) := by
  refine heeds_calm (.of (Schedule.serves_wakeAll _ _) rfl rfl)
    (.of_terms rfl fun closed => ?_) rfl rfl rfl rfl ?_
  · simp [unclosed] at closed
  intro u _ _ _ rests dry
  obtain closed | ⟨told, -⟩ := dry.2
  · simp [unclosed] at closed
  · refine absurd (Schedule.mem_wakeAll.2 (.inr ?_)) rests
    show u ∈ c.listener.toList
    simp [listener, told]

/-- If nobody can write to the channel any more, the source is told; otherwise it waits
on. -/
theorem dry_noticeSilence (buffer : w.channel.buffer = [] → w'.channel.buffer = [])
    (closed : w.channel.closed = true → w'.channel.closed = true)
    (listener : w'.channel.listener = w.channel.listener)
    (rests : u ∉ w'.noticeSilence.shop.schedule.ready) (dry : w.Dry u) :
    w'.noticeSilence.Dry u := by
  rw [noticeSilence] at rests ⊢
  split
  · rename_i senders
    exact ⟨buffer dry.1, dry.2.imp closed fun told => ⟨listener.trans told.1, senders⟩⟩
  · rename_i silent
    refine ⟨buffer dry.1, .inl ?_⟩
    obtain shut | ⟨told, -⟩ := dry.2
    · exact closed shut
    · rw [if_neg silent] at rests
      refine absurd (Schedule.mem_wakeAll.2 (.inr ?_)) rests
      show u ∈ w'.channel.listener.toList
      simp [listener, told]

theorem serves_noticeSilence (w : Engine) :
    w.shop.toDesk.Serves w.noticeSilence.shop.toDesk := by
  rw [noticeSilence]
  split
  · exact .refl _
  · exact .of (Schedule.serves_wakeAll _ _) rfl rfl

theorem heeds_dropSpare (w : Engine) : Heeds actor born w w.dropSpare := by
  have terms := noticeSilence_terms { w with spare := false }
  have serves : w.shop.toDesk.Serves w.dropSpare.shop.toDesk :=
    serves_noticeSilence { w with spare := false }
  refine heeds_calm serves ?_ (noticeSilence_tasks _) (congrArg Terms.fired terms)
    (congrArg Terms.gate terms) (congrArg Terms.lock terms) ?_
  · exact ⟨congrArg Terms.plan terms, (congrArg Terms.fired terms).trans,
      fun _ => congrArg Terms.gate terms, (noticeSilence_closed { w with spare := false }).trans,
      fun _ => congrArg Terms.spare terms, (congrArg Terms.idleSource terms).symm.trans,
      (congrArg Terms.idleStartup terms).symm.trans⟩
  · exact fun _ _ _ _ rests => dry_noticeSilence id id rfl rests

theorem heeds_fire (w : Engine) : Heeds actor born w w.fire := by
  rw [fire]
  split
  · exact heeds_refl w
  · refine .of (.of (Schedule.serves_wakeAll _ _) rfl rfl)
      ⟨rfl, fun _ => rfl, fun _ => rfl, id, id, id, id⟩ rfl (fun _ _ => rfl) (fun _ _ => id) ?_
    intro u task _ found rests blocked
    refine blocked.keep (fun heeds => absurd ?_ rests) (fun _ => rfl) (fun _ _ => .of_eq rfl)
      (fun _ _ => id) id id
    exact Schedule.mem_wakeAll.2 (.inr (mem_tasksWhere.2 ⟨task, found, heeds⟩))

theorem heeds_settleGate (w : Engine) (outcome : SyncState) :
    Heeds actor born w (w.settleGate outcome) := by
  refine .of (.of (Schedule.serves_wakeAll _ _) rfl rfl)
    ⟨rfl, id, fun settled => if_neg settled, id, id, id, id⟩ rfl (fun _ _ => rfl) (fun _ _ => id) ?_
  intro u task _ found rests blocked
  refine blocked.keep (fun _ => rfl) (fun heeds => absurd ?_ rests) (fun _ _ => .of_eq rfl)
    (fun _ _ => id) id id
  exact Schedule.mem_wakeAll.2 (.inr (mem_tasksWhere.2 ⟨task, found, heeds⟩))

/-- A task asks for the lock: whoever waits for it goes on to wait. -/
theorem heeds_acquire (w : Engine) (t : TaskId) : Heeds actor born w (w.acquire t).1 := by
  have queued : Heeds actor born w { w with lock := w.lock ++ [t] } := by
    have first {u : TaskId} (there : u ∈ w.lock) : (w.lock ++ [t]).head? = w.lock.head? :=
      List.head?_append_of_ne_nil _ (List.ne_nil_of_mem there)
    refine .of (.refl _) (.of_terms rfl id) rfl (fun _ _ => rfl)
      (fun u _ uses => (first (List.mem_of_head? uses)).trans uses) fun u task _ _ _ blocked => ?_
    refine blocked.keep (fun _ => rfl) (fun _ => rfl) (fun _ _ => .of_eq rfl) (fun _ _ => id)
      (fun ⟨there, behind⟩ => ⟨List.mem_append_left _ there, ?_⟩) id
    exact fun uses => behind ((first there).symm.trans uses)
  rw [acquire]
  dsimp only
  split
  · exact heeds_refl w
  · exact queued

/-- A task does not use the lock any more: whoever is next is made ready. -/
theorem heeds_release (w : Engine) (t : TaskId) : Heeds (some t) born w (w.release t) := by
  refine .of (.of (Schedule.serves_wakeAll _ _) rfl rfl) (.of_terms rfl id) rfl (fun _ _ => rfl)
    (fun u other uses => ?_) ?_
  · obtain ⟨rest, same⟩ := List.head?_eq_some_iff.1 uses
    show (w.lock.erase t).head? = some u
    rw [same, List.erase_cons_tail (by simpa using fun same => other (congrArg some same.symm))]
    rfl
  intro u task other _ rests blocked
  have ne : u ≠ t := fun same => other (congrArg some same.symm)
  refine blocked.keep (fun _ => rfl) (fun _ => rfl) (fun _ _ => .of_eq rfl) (fun _ _ => id)
    (fun ⟨there, _⟩ => ⟨(List.mem_erase_of_ne ne).2 there, fun next => ?_⟩) id
  refine rests (Schedule.mem_wakeAll.2 (.inr ?_))
  show u ∈ (w.lock.erase t).head?.toList
  have first : (w.lock.erase t).head? = some u := next
  simp [first]

theorem heeds_append (ready : w.nextTask ∈ w.shop.schedule.ready)
    (sort : born task) (begins : task.result? = none) :
    Heeds actor born w { w with tasks := w.tasks ++ [task] } := by
  let w' := { w with tasks := w.tasks ++ [task] }
  have old {u : TaskId} (known : u < w.tasks.length) : w'.tasks[u]? = w.tasks[u]? :=
    List.getElem?_append_left known
  have at_end : w'.tasks[w.tasks.length]? = some task := List.getElem?_concat_length
  have length : w'.tasks.length = w.tasks.length + 1 := List.length_append
  have beyond {u : TaskId} (late : w.tasks.length < u) : w'.tasks[u]? = none :=
    List.getElem?_eq_none (Nat.le_trans (Nat.le_of_eq length) late)
  refine ⟨.refl _, .of_terms rfl id, Nat.le_of_lt (Nat.lt_of_lt_of_eq (Nat.lt_succ_self _)
    length.symm), ?_, fun _ _ => id, ?_⟩
  · intro u _ other found
    have known := (List.getElem?_eq_some_iff.1 found).1
    refine .inr ⟨(old known).trans found, .inr fun blocked => ?_⟩
    refine blocked.keep (fun _ => rfl) (fun _ => rfl) (fun v _ => ?_) (fun _ _ dry => ?_) id id
    · obtain known | rfl | later := Nat.lt_trichotomy v w.tasks.length
      · exact .of_eq (old known)
      · exact .of_new (List.getElem?_eq_none (Nat.le_refl _)) at_end begins
      · exact .of_eq ((beyond later).trans (List.getElem?_eq_none (Nat.le_of_lt later)).symm)
    · refine ⟨dry.1, dry.2.imp_right (And.imp_right fun senders => ?_)⟩
      refine hasSenders_iff.2 ((hasSenders_iff.1 senders).imp_right ?_)
      rintro ⟨v, q, found, live⟩
      exact ⟨v, q, (old (List.getElem?_eq_some_iff.1 found).1).trans found, live⟩
  · intro u new late _ found
    obtain rfl | later := Nat.eq_or_lt_of_le late
    · exact ⟨ready, .inl (Option.some.inj (at_end.symm.trans found) ▸ sort)⟩
    · cases (beyond later).symm.trans found

theorem heeds_spawn (sort : born task) (begins : task.result? = none) :
    Heeds actor born w (w.spawn task) := by
  have ready : w.nextTask ∈ (w.wakeAll [w.nextTask]).shop.schedule.ready :=
    Schedule.mem_wakeAll.2 (.inr (by simp))
  have woken : Heeds actor born w (w.wakeAll [w.nextTask]) := heeds_wakeAll w _
  exact woken.trans (heeds_append ready sort begins)

/-- A task goes on. Where it tells something, whoever waits for it is made ready. -/
theorem heeds_turn (tasks : w'.tasks = w.tasks.set t new)
    (desk : w.shop.toDesk.Serves w'.shop.toDesk) (lasts : Lasts w w')
    (fired : w'.fired = w.fired) (gate : w'.gate = w.gate) (lock : w'.lock = w.lock)
    (dry : ∀ u recording, u ≠ t → w.tasks[u]? = some (.source .running recording) →
      u ∉ w'.shop.schedule.ready → w.Dry u → w'.Dry u)
    (news : NoNews w w' t ∨ ∀ u task, u ≠ t → w.tasks[u]? = some task → task.awaits t = true →
      u ∈ w'.shop.schedule.ready) : Heeds (some t) born w w' := by
  have same {u : TaskId} (ne : u ≠ t) : w'.tasks[u]? = w.tasks[u]? := by
    rw [tasks, List.getElem?_set_ne (Ne.symm ne)]
  have ne {u : TaskId} (other : some t ≠ some u) : u ≠ t :=
    fun same => other (congrArg some same.symm)
  refine .of desk lasts (by rw [tasks, List.length_set]) (fun u other => same (ne other))
    (fun _ _ => by rw [lock]; exact id) ?_
  intro u task other found rests blocked
  refine blocked.keep (fun _ => fired) (fun _ => gate) (fun v awaits => ?_) ?_ ?_
    (waiting_of_serves desk rests)
  · by_cases here : v = t
    · subst here
      obtain none | woken := news
      · exact none
      · exact absurd (woken u task (ne other) found awaits) rests
    · exact .of_eq (same here)
  · rintro recording rfl
    exact dry u recording (ne other) found rests
  · intro queues
    rw [Queues, lock]
    exact queues

/-- Whoever could write to the channel still can, if a task is as live as it was. -/
theorem hasSenders_of_turn (found : w.tasks[t]? = some task)
    (tasks : w'.tasks = w.tasks.set t new) (spare : w'.spare = w.spare)
    (live : task.isLivePump = true → new.isLivePump = true) (senders : w.hasSenders = true) :
    w'.hasSenders = true := by
  have known := (List.getElem?_eq_some_iff.1 found).1
  refine hasSenders_iff.2 ((hasSenders_iff.1 senders).imp (fun there => spare ▸ there) ?_)
  rintro ⟨v, q, found', runs⟩
  by_cases here : v = t
  · subst here
    obtain rfl := Option.some.inj (found.symm.trans found')
    have lives := live (by simpa [EngineTask.isLivePump] using runs)
    cases new <;> simp [EngineTask.isLivePump] at lives
    exact ⟨v, _, by rw [tasks, List.getElem?_set_self known], lives⟩
  · exact ⟨v, q, by rw [tasks, List.getElem?_set_ne (Ne.symm here)]; exact found', runs⟩

/-- A task goes on and tells nothing. -/
theorem heeds_setTask (found : w.tasks[t]? = some task)
    (live : task.isLivePump = true → new.isLivePump = true)
    (ended : task.isEnded = false → new.isEnded = false)
    (result : task.result? = none → new.result? = none)
    (untold : task.isUntold = true → new.isUntold = true) :
    Heeds (some t) born w (w.setTask t new) := by
  have turned : (w.setTask t new).tasks[t]? = some new :=
    List.getElem?_set_self (List.getElem?_eq_some_iff.1 found).1
  refine heeds_turn rfl (.refl _) (.of_terms rfl id) rfl rfl rfl
    (fun u _ _ _ _ dry => ?_)
    (.inl (.of_turn found turned ended result untold))
  exact ⟨dry.1, dry.2.imp_right (And.imp_right (hasSenders_of_turn found rfl rfl live))⟩

/-- Whoever waits for a task is found. -/
theorem mem_wakeAwaiting (tasks : w'.tasks = w.tasks.set t new) (ne : u ≠ t)
    (found : w.tasks[u]? = some task) (awaits : task.awaits t = true) :
    u ∈ (w'.wakeAwaiting t).shop.schedule.ready := by
  refine Schedule.mem_wakeAll.2 (.inr (mem_tasksWhere.2 ⟨task, ?_, awaits⟩))
  rw [tasks, List.getElem?_set_ne (Ne.symm ne)]
  exact found

/-- A task goes on, and whoever waits for it is made ready. -/
theorem heeds_wakeAwaiting (found : w.tasks[t]? = some task)
    (live : task.isLivePump = true → new.isLivePump = true) :
    Heeds (some t) born w ((w.setTask t new).wakeAwaiting t) := by
  refine heeds_turn rfl (.of (Schedule.serves_wakeAll _ _) rfl rfl)
    (.of_terms rfl id) rfl rfl rfl
    (fun u _ _ _ _ dry => ?_)
    (.inr fun u task ne found awaits => mem_wakeAwaiting rfl ne found awaits)
  exact ⟨dry.1, dry.2.imp_right (And.imp_right (hasSenders_of_turn found rfl rfl live))⟩

/-- Nobody waits for a task, so nobody misses that it has ended. -/
theorem heeds_unawaited (found : w.tasks[t]? = some task) (no_pump : task.isLivePump = false)
    (unawaited : ∀ (u : TaskId) (other : EngineTask), w.tasks[u]? = some other →
      other.awaits t = false) :
    Heeds (some t) born w (w.setTask t new) := by
  refine heeds_turn rfl (.refl _) (.of_terms rfl id) rfl rfl rfl
    (fun u _ _ _ _ dry => ?_) (.inr fun u other _ there awaits => ?_)
  · refine ⟨dry.1, dry.2.imp_right (And.imp_right (hasSenders_of_turn found rfl rfl ?_))⟩
    simp [no_pump]
  · simp [unawaited u other there] at awaits

@[simp] theorem grant_listener (c : Channel) : c.grant.1.listener = c.listener := by
  rw [Channel.grant]
  split <;> rfl

@[simp] theorem withdraw_listener (c : Channel) (t : TaskId) :
    (c.withdraw t).1.listener = c.listener := by
  rw [Channel.withdraw]
  split
  · exact grant_listener _
  · rfl

@[simp] theorem endPump_terms (w : Engine) (t : TaskId) (q : Pump) :
    (w.endPump t q).terms = w.terms := noticeSilence_terms _

theorem endPump_tasks (w : Engine) (t : TaskId) (q : Pump) :
    (w.endPump t q).tasks = w.tasks.set t (.pump { q with state := .ended }) :=
  noticeSilence_tasks _

/-- A pump ends, and everybody who waits for it is told. -/
theorem heeds_endPump (w : Engine) (t : TaskId) (q : Pump) :
    Heeds (some t) born w (w.endPump t q) := by
  have terms := w.endPump_terms t q
  have tasks := w.endPump_tasks t q
  let w₁ := ({ w with channel := (w.channel.withdraw t).1 }.setTask t
    (.pump { q with state := .ended })).wakeAll (w.channel.withdraw t).2.toList
  have first : w.shop.toDesk.Serves (w₁.wakeAwaiting t).shop.toDesk :=
    .of ((Schedule.serves_wakeAll _ _).trans (Schedule.serves_wakeAll _ _)) rfl rfl
  have last := serves_noticeSilence (w₁.wakeAwaiting t)
  have closed : w.channel.closed = true → (w.endPump t q).channel.closed = true := fun shut =>
    (noticeSilence_closed _).trans ((Path.withdraw_closed _ _).trans shut)
  refine heeds_turn tasks (first.trans last) ⟨congrArg Terms.plan terms,
    (congrArg Terms.fired terms).trans, fun _ => congrArg Terms.gate terms, closed,
    (congrArg Terms.spare terms).trans, (congrArg Terms.idleSource terms).symm.trans,
    (congrArg Terms.idleStartup terms).symm.trans⟩ (congrArg Terms.fired terms)
    (congrArg Terms.gate terms) (congrArg Terms.lock terms) ?_
    (.inr ?_)
  · intro u _ _ _ rests
    refine dry_noticeSilence (fun empty => ?_) (fun closed => ?_) ?_ rests
    · exact (Path.withdraw_buffer _ _).trans empty
    · exact (Path.withdraw_closed _ _).trans closed
    · exact withdraw_listener _ _
  · intro u task ne found awaits
    have turned : w₁.tasks = w.tasks.set t (.pump { q with state := .ended }) := rfl
    exact last.keeps u (mem_wakeAwaiting turned ne found awaits)

/-- Pumps that are told to end are made ready. -/
theorem heeds_abort (w : Engine) (ts : List TaskId) : Heeds actor born w (w.abort ts) := by
  rw [abort]
  induction ts generalizing w with
  | nil => exact heeds_refl w
  | cons t ts ih =>
      refine Heeds.trans ?_ (ih _)
      dsimp only
      split
      · rename_i q pump
        have found := role_eq_pump.1 (pump?_eq_some.1 pump)
        split
        · exact heeds_refl w
        · rename_i live
          -- for the others it is as if the pump had gone on by itself
          have marked : Heeds (some t) born w (w.setTask t (.pump { q with aborted := true })) :=
            heeds_setTask found id id id id
          have aside := marked.trans (heeds_wakeAll _ [t])
          refine ⟨aside.desk, aside.lasts, aside.length, fun u other task found' => ?_,
            fun _ _ => id, fun u task late _ there => ?_⟩
          · by_cases here : u = t
            · subst here
              obtain rfl := Option.some.inj (found.symm.trans found')
              refine .inl ⟨q, rfl, live, Schedule.mem_wakeAll.2 (.inr (by simp)), ?_⟩
              exact List.getElem?_set_self (List.getElem?_eq_some_iff.1 found).1
            · exact aside.others u (fun same => here (Option.some.inj same).symm) task found'
          · have known : u < (w.tasks.set t (.pump { q with aborted := true })).length :=
              (List.getElem?_eq_some_iff.1 there).1
            rw [List.length_set] at known
            omega
      · exact heeds_refl w

end Engine

end ResourceWatch
