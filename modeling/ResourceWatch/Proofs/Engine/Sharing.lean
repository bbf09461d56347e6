import ResourceWatch.Proofs.Engine.Working

/-!
# Who changes what the tasks share

The tasks share the token, the gate, the channel and the kept registration, and most of
them leave these as they are. Only the pipeline lets the token fire, and only a source that
ends closes the channel. A registration is kept when streams were opened for it or when
startup hands it over; a call may then take its streams, and nobody puts them back.
-/

namespace ResourceWatch

/-- Whether a task may change what the tasks share besides the channel. -/
def EngineTask.steers : EngineTask → Bool
  | .startup _ | .hydration _ | .join _ | .pipeline _ => true
  | _ => false

/-- A source that goes on leaves the channel open, or ends. -/
theorem Source.act_closed (state : Source) (c : Channel) (t : TaskId) (fired senders : Bool) :
    (state.act c t fired senders).channel.closed = true →
      c.closed = true ∨ Source.after (state.act c t fired senders).deed = .ended := by
  cases state with
  | fresh | ended => exact .inl
  | running =>
      simp only [Source.act]
      split
      · exact fun _ => .inr rfl
      · split
        · rename_i e c' woken received
          have same := Path.receive?_closed received
          split <;> exact fun closed => .inl (same.symm.trans closed)
        · split
          · exact .inl
          · exact fun _ => .inr rfl

namespace Engine

variable {w w' w'' : Engine} {t u : TaskId} {task new : EngineTask} {actor : Option TaskId}
  {born : EngineTask → Prop}

section Terms

@[simp] theorem abort_terms (w : Engine) (ts : List TaskId) : (w.abort ts).terms = w.terms := by
  rw [abort]
  induction ts generalizing w with
  | nil => rfl
  | cons t ts ih =>
      rw [List.foldl_cons, ih]
      split
      · split <;> rfl
      · rfl

theorem actPump_terms (w : Engine) (t : TaskId) (q : Pump) :
    (w.actPump t q).1.terms = w.terms := by
  have ends (w : Engine) : (w.endPump t q).terms = w.terms := w.endPump_terms t q
  have offers (w : Engine) (e : ChangeEvent) : (w.offer t q e).1.terms = w.terms := by
    simp only [offer]
    split
    · rfl
    · exact ends _
    · rfl
  have fed (w : Engine) (f : Feed) :
      { w with provider := w.provider.put f }.terms = w.terms := by
    simp [terms]
  have delivers (w : Engine) (item : StreamItem) : (w.deliver t q item).1.terms = w.terms := by
    rcases item with e | _ | _
    · rfl
    · simp only [deliver]
      split
      · exact log_terms _ _
      · exact (offers _ _).trans (log_terms _ _)
    · rfl
  simp only [actPump]
  split
  · rfl
  · split
    · exact ends w
    · simp only [listen]
      split
      · split
        · rfl
        · exact ends w
      · exact (delivers _ _).trans (fed w _)
      · exact fed w _
  · split
    · exact ends w
    · exact offers w _

theorem actSource_terms (w : Engine) (t : TaskId) (state : Source) (recording : Bool) :
    (w.actSource t state recording).1.terms = w.terms := by
  have told (w' : Engine) (events : List LogEvent) (same : w'.terms = w.terms) :
      (w'.log events).terms = w.terms := (log_terms w' events).trans same
  cases state with
  | ended => rfl
  | fresh | running =>
      simp only [actSource]
      split <;> [split; skip; skip] <;> exact told _ _ rfl

theorem actWorker_terms (w : Engine) (t : TaskId) (state : Worker) :
    (w.actWorker t state).1.terms = w.terms := by
  simp only [actWorker]
  split <;> rfl

theorem openStreams_terms (w : Engine) (r : Registration) (watches : List PlannedWatch) :
    (w.openStreams r watches).1.terms = w.terms := by
  induction watches generalizing w r with
  | nil => rfl
  | cons watch rest ih =>
      rw [openStreams]
      split
      · exact abort_terms w _
      · dsimp only
        split
        all_goals
          rename_i provider _ asked
          have same : { w with provider }.terms = w.terms := by
            simp [terms, Provider.failing_of_open? asked]
        · exact (abort_terms _ _).trans same
        · exact (ih _ _).trans same

theorem register_terms (w : Engine) : w.register.1.terms = w.terms := by
  have opened := openStreams_terms w {} w.plan.watches
  rw [register]
  split
  all_goals
    rename_i answered
    rw [answered] at opened
    exact opened

/-- A task that steers nothing leaves what the tasks share as it is. -/
theorem act_terms (found : w.tasks[t]? = some task) (aside : task.steers = false) :
    (w.act t).1.terms = w.terms := by
  cases task with
  | pump q =>
      simp only [act, found]
      exact w.actPump_terms t q
  | source state recording =>
      simp only [act, found]
      exact w.actSource_terms t state recording
  | worker state =>
      simp only [act, found]
      exact w.actWorker_terms t state
  | waiter answer =>
      simp only [act, found]
      cases answer <;> rfl
  | delayed key push =>
      simp only [act, found]
      rfl
  | startup | hydration | join | pipeline => cases aside

theorem fire_terms (w : Engine) : w.fire.terms = { w.terms with fired := true } := by
  rw [fire]
  split
  · rename_i fired
    simp only [terms, fired]
  · rfl

theorem endStartup_terms (w : Engine) (t : TaskId) (result : Except WatchError Registration) :
    ∃ kept, (w.endStartup t result).terms = { w.terms with kept } ∧
      (kept = w.kept ∨ ∃ r, result = .ok r ∧ kept = some r) := by
  simp only [endStartup]
  cases result with
  | error e => exact ⟨w.kept, rfl, .inl rfl⟩
  | ok r =>
      dsimp only
      split
      · exact ⟨some r, rfl, .inr ⟨r, rfl, rfl⟩⟩
      · exact ⟨w.kept, rfl, .inl rfl⟩

/-- Startup settles the gate, and hands over the streams that it has waited for. -/
theorem actStartup_terms (w : Engine) (t : TaskId) (state : Startup) :
    ∃ gate spare kept, (w.actStartup t state).1.terms = { w.terms with gate, spare, kept } ∧
      (kept = w.kept ∨ ∃ r pending due, state = .hydrating r pending due ∧
        w.hydrate pending = .ok [] ∧ kept = some r) := by
  cases state with
  | ended => exact ⟨w.gate, w.spare, w.kept, rfl, .inl rfl⟩
  | fresh =>
      have opened := w.register_terms
      simp only [actStartup]
      split
      all_goals
        rename_i w₁ outcome registered
        rw [registered] at opened
      · have silent := noticeSilence_terms { w₁.settleGate .cancelled with spare := false }
        refine ⟨w₁.gate.settle .cancelled, false, w.kept, silent.trans ?_, .inl rfl⟩
        exact congrArg (fun terms : Terms =>
          { terms with gate := w₁.gate.settle .cancelled, spare := false }) opened
      · have silent := noticeSilence_terms { w₁ with spare := false }
        refine ⟨w.gate, false, w.kept, silent.trans ?_, .inl rfl⟩
        exact congrArg (fun terms : Terms => { terms with spare := false }) opened
  | hydrating r pending due =>
      obtain ⟨rest, answer, hydrated⟩ | ⟨answer, hydrated⟩ | ⟨e, answer⟩ :=
        @hydration_cases w w.fired pending w.limit due
      · simp only [actStartup, answer]
        exact ⟨w.gate, w.spare, w.kept, rfl, .inl rfl⟩
      · obtain ⟨kept, ended, same⟩ := endStartup_terms
          { (w.clearTimers t).settleGate .synced with synced := true } t (.ok r)
        simp only [actStartup, answer]
        refine ⟨w.gate.settle .synced, w.spare, kept, ended, same.imp id ?_⟩
        rintro ⟨r', ok, rfl⟩
        cases ok
        exact ⟨r, pending, due, rfl, hydrated, rfl⟩
      · have aborted := (w.clearTimers t).abort_terms r.pumps
        simp only [actStartup, answer]
        refine ⟨((w.clearTimers t).drop r).gate.settle .cancelled, w.spare, w.kept, ?_, .inl rfl⟩
        exact congrArg (fun terms : Terms =>
          { terms with gate := ((w.clearTimers t).drop r).gate.settle .cancelled }) aborted

theorem acquire_terms (w : Engine) (t : TaskId) :
    (w.acquire t).1.terms = { w.terms with lock := (w.acquire t).1.lock } := by
  rw [acquire]
  dsimp only
  split <;> rfl

/-- A call that waits for streams takes them with it, once it may use the registration. -/
theorem actHydration_terms (w : Engine) (t : TaskId) (call : HydrationCall) :
    ∃ kept lock, (w.actHydration t call).1.terms = { w.terms with kept, lock } ∧
      (kept = w.kept ∨ ∃ r limit token, call = .locking limit token ∧
        (w.acquire t).2 = true ∧ w.kept = some r ∧ kept = some { r with pending := [] }) := by
  cases call with
  | ended | dropped => exact ⟨w.kept, w.lock, rfl, .inl rfl⟩
  | hydrating pending limit due token =>
      simp only [actHydration]
      split
      · exact ⟨w.kept, w.lock, rfl, .inl rfl⟩
      · exact ⟨w.kept, w.lock.erase t, rfl, .inl rfl⟩
  | locking limit token =>
      have acquired := w.acquire_terms t
      simp only [actHydration]
      split
      all_goals
        rename_i w₁ answered
        rw [answered] at acquired
      · exact ⟨w.kept, w₁.lock, acquired, .inl rfl⟩
      · split
        · refine ⟨w.kept, w₁.lock.erase t, ?_, .inl rfl⟩
          exact congrArg (fun terms : Terms => { terms with lock := w₁.lock.erase t }) acquired
        · rename_i r registered
          have there : w.kept = some r := (congrArg Terms.kept acquired).symm.trans registered
          refine ⟨some { r with pending := [] }, w₁.lock, ?_,
            .inr ⟨r, limit, token, rfl, by rw [answered], there, rfl⟩⟩
          exact congrArg
            (fun terms : Terms => { terms with kept := some { r with pending := [] } }) acquired

/-- A call that waits for the streams to end takes the registration away. -/
theorem actJoin_terms (w : Engine) (t : TaskId) (call : JoinCall) :
    ∃ kept lock, (w.actJoin t call).1.terms = { w.terms with kept, lock } ∧
      (kept = w.kept ∨ kept = none) := by
  cases call with
  | ended => exact ⟨w.kept, w.lock, rfl, .inl rfl⟩
  | joining =>
      simp only [actJoin]
      split <;> exact ⟨w.kept, w.lock, rfl, .inl rfl⟩
  | locking =>
      have acquired := w.acquire_terms t
      simp only [actJoin]
      split
      all_goals
        rename_i w₁ answered
        rw [answered] at acquired
      · exact ⟨w.kept, w₁.lock, acquired, .inl rfl⟩
      · split
        · refine ⟨w.kept, w₁.lock.erase t, ?_, .inl rfl⟩
          exact congrArg (fun terms : Terms => { terms with lock := w₁.lock.erase t }) acquired
        · refine ⟨none, w₁.lock.erase t, ?_, .inr rfl⟩
          exact congrArg
            (fun terms : Terms => { terms with kept := none, lock := w₁.lock.erase t }) acquired

/-- The pipeline may let the token fire. -/
theorem actPipeline_terms (w : Engine) (t : TaskId) (state : Pipeline) :
    ∃ fired, (w.actPipeline t state).1.terms = { w.terms with fired } := by
  cases state with
  | fresh | ended => exact ⟨w.fired, rfl⟩
  | syncing | running =>
      simp only [actPipeline]
      split <;> first | exact ⟨w.fired, rfl⟩ | exact ⟨true, w.fire_terms⟩
  | draining | stopping | opening =>
      simp only [actPipeline]
      split <;> exact ⟨w.fired, rfl⟩
  | failing =>
      simp only [actPipeline]
      split
      · exact ⟨w.fired, rfl⟩
      · rename_i result _
        cases result with
        | error e => exact ⟨w.fired, rfl⟩
        | ok r => exact ⟨w.fired, w.abort_terms r.pumps⟩

/-- Only the pipeline lets the token fire. -/
theorem act_fired (aside : ∀ state, w.tasks[t]? ≠ some (.pipeline state)) :
    (w.act t).1.fired = w.fired := by
  cases found : w.tasks[t]? with
  | none => simp only [act, found]
  | some task =>
      cases task with
      | pipeline state => exact absurd found (aside state)
      | startup state =>
          obtain ⟨gate, spare, kept, same, -⟩ := w.actStartup_terms t state
          simp only [act, found]
          exact congrArg Terms.fired same
      | hydration call =>
          obtain ⟨kept, lock, same, -⟩ := w.actHydration_terms t call
          simp only [act, found]
          exact congrArg Terms.fired same
      | join call =>
          obtain ⟨kept, lock, same, -⟩ := w.actJoin_terms t call
          simp only [act, found]
          exact congrArg Terms.fired same
      | _ => exact congrArg Terms.fired (act_terms found rfl)

/-- The registration whose streams a call takes with it when it goes on. -/
def seizes (w : Engine) (t : TaskId) : Option Registration :=
  match w.tasks[t]? with
  | some (.hydration (.locking ..)) => if (w.acquire t).2 then w.kept else none
  | _ => none

/-- A task that goes on keeps the registration, or lets go of it, or takes its streams, or
hands over the streams that it has waited for. -/
theorem act_kept (w : Engine) (t : TaskId) :
    (w.act t).1.kept = w.kept ∨ (w.act t).1.kept = none ∨
      (∃ r, w.seizes t = some r ∧ (w.act t).1.kept = some { r with pending := [] }) ∨
      ∃ r pending due, w.tasks[t]? = some (.startup (.hydrating r pending due)) ∧
        w.hydrate pending = .ok [] ∧ (w.act t).1.kept = some r := by
  cases found : w.tasks[t]? with
  | none =>
      simp only [act, found]
      exact .inl trivial
  | some task =>
      cases task with
      | pipeline state =>
          obtain ⟨fired, same⟩ := w.actPipeline_terms t state
          simp only [act, found]
          exact .inl (congrArg Terms.kept same)
      | startup state =>
          obtain ⟨gate, spare, kept, same, hands⟩ := w.actStartup_terms t state
          have now := congrArg Terms.kept same
          simp only [act, found]
          obtain old | ⟨r, pending, due, rfl, hydrated, rfl⟩ := hands
          · exact .inl (now.trans old)
          · exact .inr (.inr (.inr ⟨r, pending, due, rfl, hydrated, now⟩))
      | hydration call =>
          obtain ⟨kept, lock, same, takes⟩ := w.actHydration_terms t call
          have now := congrArg Terms.kept same
          simp only [act, found]
          obtain old | ⟨r, limit, token, rfl, acquired, registered, rfl⟩ := takes
          · exact .inl (now.trans old)
          · refine .inr (.inr (.inl ⟨r, ?_, now⟩))
            simp only [seizes, found, acquired, if_true]
            exact registered
      | join call =>
          obtain ⟨kept, lock, same, lets⟩ := w.actJoin_terms t call
          have now := congrArg Terms.kept same
          simp only [act, found]
          exact lets.imp now.trans fun gone => .inl (now.trans gone)
      | _ => exact .inl (congrArg Terms.kept (act_terms found rfl))

end Terms

section Channel

@[simp] theorem abort_channel (w : Engine) (ts : List TaskId) :
    (w.abort ts).channel = w.channel := by
  obtain ⟨_, -, -, marked, -⟩ := w.path_abort ts
  exact congrArg Path.channel marked

theorem openStreams_channel (w : Engine) (r : Registration) (watches : List PlannedWatch) :
    (w.openStreams r watches).1.channel = w.channel := by
  induction watches generalizing w r with
  | nil => rfl
  | cons watch rest ih =>
      rw [openStreams]
      split
      · exact abort_channel w _
      · dsimp only
        split
        · exact abort_channel _ _
        · exact ih _ _

theorem register_channel (w : Engine) : w.register.1.channel = w.channel := by
  have opened := openStreams_channel w {} w.plan.watches
  rw [register]
  split
  all_goals
    rename_i answered
    rw [answered] at opened
    exact opened

@[simp] theorem log_channel (w : Engine) (events : List LogEvent) :
    (w.log events).channel = w.channel := congrArg Path.channel (log_path w events)

@[simp] theorem fire_channel (w : Engine) : w.fire.channel = w.channel := by
  rw [fire]
  split <;> rfl

theorem endStartup_channel (w : Engine) (t : TaskId) (result : Except WatchError Registration) :
    (w.endStartup t result).channel = w.channel := by
  simp only [endStartup]
  cases result with
  | error e => rfl
  | ok r =>
      dsimp only
      split <;> rfl

theorem actPump_closed (w : Engine) (t : TaskId) (q : Pump) :
    (w.actPump t q).1.channel.closed = w.channel.closed := by
  have ends (w : Engine) : (w.endPump t q).channel.closed = w.channel.closed :=
    (noticeSilence_closed _).trans (Path.withdraw_closed w.channel t)
  have offers (w : Engine) (e : ChangeEvent) :
      (w.offer t q e).1.channel.closed = w.channel.closed := by
    obtain ⟨-, offered⟩ | ⟨-, -, offered⟩ | ⟨-, -, offered⟩ | ⟨-, -, -, offered⟩ :=
      w.channel.offer_cases t e
    · simp only [offer, offered]
      exact ends _
    all_goals
      simp only [offer, offered]
      rfl
  have delivers (w : Engine) (item : StreamItem) :
      (w.deliver t q item).1.channel.closed = w.channel.closed := by
    rcases item with e | _ | _
    · rfl
    · simp only [deliver]
      have told (events : List LogEvent) : (w.log events).channel.closed = w.channel.closed :=
        congrArg Channel.closed (log_channel w events)
      split
      · exact told _
      · exact (offers _ _).trans (told _)
    · rfl
  simp only [actPump]
  split
  · rfl
  · split
    · exact ends w
    · simp only [listen]
      split
      · split
        · rfl
        · exact ends w
      · exact delivers _ _
      · rfl
  · split
    · exact ends w
    · exact offers w _

theorem actSource_channel (w : Engine) (t : TaskId) {state : Source} (recording : Bool)
    (runs : state ≠ .ended) : (w.actSource t state recording).1.channel =
      (state.act w.channel t w.fired w.hasSenders).channel := by
  cases state with
  | ended => exact absurd rfl runs
  | fresh | running =>
      simp only [actSource]
      split <;> [split; skip; skip] <;> exact log_channel _ _

theorem actSource_after {state : Source} {recording : Bool} (runs : state ≠ .ended)
    (found : w.tasks[t]? = some (.source state recording)) :
    (w.actSource t state recording).1.tasks[t]? = some
      (.source (Source.after (state.act w.channel t w.fired w.hasSenders).deed) recording) := by
  have turned := setTask_self found
    (.source (Source.after (state.act w.channel t w.fired w.hasSenders).deed) recording)
  cases state with
  | ended => exact absurd rfl runs
  | fresh | running =>
      simp only [actSource]
      split <;> [split; skip; skip] <;> exact (congrArg (·[t]?) (log_tasks _ _)).trans turned

theorem actStartup_closed (w : Engine) (t : TaskId) (state : Startup) :
    (w.actStartup t state).1.channel.closed = w.channel.closed := by
  cases state with
  | ended => rfl
  | fresh =>
      have opened := w.register_channel
      simp only [actStartup]
      split
      all_goals
        rename_i w₁ outcome registered
        rw [registered] at opened
      · rw [endStartup_channel]
        exact (noticeSilence_closed _).trans (congrArg Channel.closed opened)
      · exact (noticeSilence_closed _).trans (congrArg Channel.closed opened)
  | hydrating r pending due =>
      simp only [actStartup]
      split
      · rfl
      · rw [endStartup_channel]
        rfl
      · rw [endStartup_channel]
        exact congrArg Channel.closed (abort_channel (w.clearTimers t) r.pumps)

theorem actPipeline_channel (w : Engine) (t : TaskId) (state : Pipeline) :
    (w.actPipeline t state).1.channel = w.channel := by
  cases state with
  | fresh | ended => rfl
  | syncing | running =>
      simp only [actPipeline]
      split <;> first | rfl | exact w.fire_channel
  | draining | stopping | opening =>
      simp only [actPipeline]
      split <;> rfl
  | failing =>
      simp only [actPipeline]
      split
      · rfl
      · rename_i result _
        cases result with
        | error e => rfl
        | ok r => exact w.abort_channel r.pumps

/-- The channel is closed only by a source that ends. -/
theorem act_closed (closed : (w.act t).1.channel.closed = true) :
    w.channel.closed = true ∨
      ∃ recording, (w.act t).1.tasks[t]? = some (.source .ended recording) := by
  cases found : w.tasks[t]? with
  | none =>
      simp only [act, found] at closed
      exact .inl closed
  | some task =>
      cases task with
      | source state recording =>
          simp only [act, found] at closed ⊢
          by_cases ended : state = .ended
          · subst ended
            exact .inl closed
          · rw [actSource_channel w t recording ended] at closed
            rw [actSource_after ended found]
            exact (Source.act_closed state _ t _ _ closed).imp_right fun after =>
              ⟨recording, by rw [after]⟩
      | pump q =>
          simp only [act, found] at closed
          exact .inl ((w.actPump_closed t q).symm.trans closed)
      | startup state =>
          simp only [act, found] at closed
          exact .inl ((w.actStartup_closed t state).symm.trans closed)
      | hydration call =>
          simp only [act, found] at closed
          obtain ⟨_, _, -, same⟩ := stirs_actHydration found
          exact .inl ((congrArg (·.channel.closed) same).symm.trans closed)
      | join call =>
          simp only [act, found] at closed
          obtain ⟨_, _, -, same⟩ := stirs_actJoin found
          exact .inl ((congrArg (·.channel.closed) same).symm.trans closed)
      | pipeline state =>
          simp only [act, found] at closed
          exact .inl ((congrArg Channel.closed (w.actPipeline_channel t state)).symm.trans closed)
      | worker state =>
          simp only [act, found, actWorker] at closed
          split at closed <;> exact .inl closed
      | waiter answer =>
          simp only [act, found] at closed
          cases answer <;> exact .inl closed
      | delayed key push =>
          simp only [act, found] at closed
          exact .inl closed

end Channel

section Outside

/-- Somebody outside gets a task that answers. -/
theorem heeds_call (is : born task) (begins : task.result? = none) :
    Heeds actor born w (w.call task) := by
  have spawned : Heeds actor born w (w.spawn task) := heeds_spawn is begins
  exact spawned.trans (heeds_alike (.refl _) rfl rfl rfl)

theorem heeds_keep (w : Engine) (kept : Option Registration) :
    Heeds actor born w { w with kept } :=
  heeds_calm (.refl _) (.of_terms rfl id) rfl rfl rfl rfl fun _ _ _ _ _ => id

theorem heeds_dropKept (w : Engine) : Heeds actor born w w.dropKept := by
  rw [dropKept]
  split
  · exact (heeds_keep w none).trans (heeds_abort _ _)
  · exact heeds_refl w

theorem dropKept_kept (w : Engine) : w.dropKept.kept = none := by
  rw [dropKept]
  split
  · exact congrArg Terms.kept (abort_terms { w with kept := none } _)
  · assumption

/-- Nobody receives from the channel any more. No source misses a change by that. -/
theorem heeds_dropReceiver (w : Engine) : Heeds actor born w w.dropReceiver :=
  heeds_calm (.of (Schedule.serves_wakeAll _ _) rfl rfl) (.of_terms rfl fun _ => rfl)
    rfl rfl rfl rfl fun _ _ _ _ _ _ => ⟨rfl, .inl rfl⟩

theorem heeds_receive (w : Engine) : Heeds actor born w w.receive := by
  rw [receive]
  split
  · rename_i e c woken received
    obtain ⟨rest, buffer, granted⟩ := Path.receive?_eq_some.1 received
    have listener := grant_listener { w.channel with buffer := rest }
    rw [granted] at listener
    have freed : Heeds actor born w { w with channel := c } :=
      heeds_channel (fun empty => by simp [empty] at buffer)
        (Path.receive?_closed received).trans listener
    have took : Heeds actor born { w with channel := c }
        { w with channel := c, received := w.received ++ [e] } := heeds_alike (.refl _) rfl rfl rfl
    exact (freed.trans took).trans (heeds_wakeAll _ _)
  · exact heeds_refl w

theorem receive_kept (w : Engine) : w.receive.kept = w.kept := by
  rw [receive]
  split <;> rfl

/-- What a command spares: the token unless it is the one that fires it, the gate unless
startup is given up, the queue for the kept registration unless a call is given up, and which
streams cannot be opened unless that is what it is about. -/
structure Spares (w : Engine) (c : Command) (w' : Engine) : Prop where
  fired : c ≠ .cancel → w'.fired = w.fired
  gate : c ≠ .dropStartup → w'.gate = w.gate
  lock : (∀ t, c ≠ .dropCall t) → w'.lock = w.lock
  refusals : (∀ gvk e, c ≠ .failOn gvk e) → w'.provider.failing = w.provider.failing

theorem Spares.of {c : Command} (fired : w'.fired = w.fired) (gate : w'.gate = w.gate)
    (lock : w'.lock = w.lock) (refusals : w'.provider.failing = w.provider.failing) :
    Spares w c w' := ⟨fun _ => fired, fun _ => gate, fun _ => lock, fun _ => refusals⟩

theorem Spares.of_terms {c : Command} (same : w'.terms = w.terms) : Spares w c w' :=
  .of (congrArg Terms.fired same) (congrArg Terms.gate same) (congrArg Terms.lock same)
    (congrArg Terms.refusals same)

theorem spares_dropKept (w : Engine) (c : Command) : Spares w c w.dropKept := by
  rw [dropKept]
  split
  · have same := abort_terms { w with kept := none }
    exact .of (congrArg Terms.fired (same _)) (congrArg Terms.gate (same _))
      (congrArg Terms.lock (same _)) (congrArg Terms.refusals (same _))
  · exact .of_terms rfl

theorem apply_spares (w : Engine) (c : Command) : Spares w c (w.apply c).1 := by
  cases c with
  | start | source | run | dropSource | fireCall =>
      simp only [apply, fireCall]
      split <;> exact .of rfl rfl rfl rfl
  | register =>
      have opened := w.register_terms
      simp only [apply]
      split
      · split
        all_goals
          rename_i registered
          rw [registered] at opened
        · obtain ⟨fired, gate, lock, refusals⟩ := spares_dropKept _ .register
          exact .of ((fired (by simp)).trans (congrArg Terms.fired opened))
            ((gate (by simp)).trans (congrArg Terms.gate opened))
            ((lock (by simp)).trans (congrArg Terms.lock opened))
            ((refusals (by simp)).trans (congrArg Terms.refusals opened))
        · exact .of_terms opened
      · exact .of rfl rfl rfl rfl
  | dropCall t =>
      refine ⟨fun _ => ?_, fun _ => ?_, fun spared => absurd rfl (spared t), fun _ => ?_⟩
      all_goals
        simp only [apply, dropHydration]
        split <;> rfl
  | join alone =>
      cases alone with
      | true => exact .of rfl rfl rfl rfl
      | false =>
          simp only [apply]
          split <;> exact .of rfl rfl rfl rfl
  | dropStartup =>
      simp only [apply]
      split
      · have silent := noticeSilence_terms { w with idleStartup := false, spare := false }
        exact ⟨fun _ => congrArg Terms.fired silent, fun spared => absurd rfl spared,
          fun _ => congrArg Terms.lock silent, fun _ => congrArg Terms.refusals silent⟩
      · exact .of rfl rfl rfl rfl
  | dropRegistration =>
      simp only [apply]
      split
      · exact spares_dropKept w _
      · exact .of rfl rfl rfl rfl
  | dropSpare =>
      have silent := noticeSilence_terms { w with spare := false }
      exact .of (congrArg Terms.fired silent) (congrArg Terms.gate silent)
        (congrArg Terms.lock silent) (congrArg Terms.refusals silent)
  | receive =>
      simp only [apply, receive]
      split <;> exact .of rfl rfl rfl rfl
  | cancel =>
      have fires := w.fire_terms
      exact ⟨fun spared => absurd rfl spared, fun _ => congrArg Terms.gate fires,
        fun _ => congrArg Terms.lock fires, fun _ => congrArg Terms.refusals fires⟩
  | arrive gvk arrival => exact .of rfl rfl rfl (Provider.put_failing _ _)
  | observe gvk event =>
      exact .of rfl rfl rfl ((Provider.put_failing _ _).trans (Provider.put_failing _ _))
  | closeStream gvk =>
      refine .of rfl rfl rfl ?_
      show (w.provider.close gvk).failing = w.provider.failing
      rw [Provider.close]
      split
      · exact Provider.put_failing _ _
      · rfl
  | failOn gvk e =>
      exact ⟨fun _ => rfl, fun _ => rfl, fun _ => rfl, fun spared => absurd rfl (spared gvk e)⟩
  | waitSync | waitHydrated | dropReceiver | drain | pass | push | closeQueue =>
      exact .of rfl rfl rfl rfl

end Outside

end Engine

end ResourceWatch
