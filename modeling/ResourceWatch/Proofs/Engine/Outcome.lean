import ResourceWatch.Proofs.Engine.Cleanup

/-!
# A pipeline tells the truth about why it stopped

The token that is fired from outside is the one that a pipeline fires itself in order to
stop, so that the token has fired says nothing about why. What does is the order in which
things happen.

Three invariants say what a pipeline can bring back. In every run its result is the one of
startup, or there was a reason to stop after the gate had opened (`Accords`). As long as
nobody cancels before startup has failed, whatever fails fails by itself, and nothing ends
well (`Spontaneous`). Once somebody has cancelled in time, whatever fails fails because of
that, and nothing ends but well (`Calm`). Two more say what has ended by then: the worker is
nobody's but the pipeline's (`Employed`), and a pipeline that has seen the gate open waits
for its worker and its streams (`Upholds`). Each is kept by whatever happens.
-/

namespace ResourceWatch

/-- Whether a worker that stands somewhere is that of a pipeline. -/
def Pipeline.Employs (u : TaskId) (s : Worker) : Pipeline → Prop
  | .running _ worker _ | .stopping _ worker _ _ => u = worker
  | .ended _ => s = .stopped
  | _ => False

/-- Whether a pipeline does not know yet what has become of the gate. -/
def Pipeline.awaitsGate : Pipeline → Bool
  | .fresh | .syncing .. => true
  | _ => false

/-- Whether a pipeline has seen the gate open and has not ended. -/
def Pipeline.hasOpened : Pipeline → Bool
  | .opening .. | .running .. | .stopping .. => true
  | _ => false

namespace Engine

variable {options : EngineOptions} {plan : WatchPlan} {w w' : Engine} {t u v : TaskId}
  {task : EngineTask} {x : Happening Command} {past : Past Engine Command} {e : WatchError}
  {state state' : Pipeline} {result : PipelineResult}

section Reasons

/-! ### What a result stands for -/

/-- A result is what startup has come to. -/
def Brought (w : Engine) (result : PipelineResult) : Prop :=
  ∃ (u : TaskId) (outcome : Except WatchError Registration),
    w.tasks[u]? = some (.startup (.ended outcome)) ∧ result = beforeSync outcome

def SourceGone (w : Engine) : Prop :=
  ∃ (u : TaskId) (recording : Bool), w.tasks[u]? = some (.source .ended recording)

def WorkerGone (w : Engine) : Prop := ∃ u : TaskId, w.tasks[u]? = some (.worker .stopped)

/-- Startup has ended well, and its streams have all ended. -/
def Joined (w : Engine) : Prop :=
  ∃ (u : TaskId) (r : Registration), w.tasks[u]? = some (.startup (.ended (.ok r))) ∧
    ∀ v ∈ r.pumps, ∃ q, w.tasks[v]? = some (.pump q) ∧ q.state = .ended

theorem Brought.evolves (h : w.Brought result) (evolves : w.Evolves w') : w'.Brought result := by
  obtain ⟨u, outcome, found, same⟩ := h
  exact ⟨u, outcome, evolves.final found rfl, same⟩

theorem SourceGone.evolves (h : w.SourceGone) (evolves : w.Evolves w') : w'.SourceGone := by
  obtain ⟨u, recording, found⟩ := h
  exact ⟨u, recording, evolves.final found rfl⟩

theorem WorkerGone.evolves (h : w.WorkerGone) (evolves : w.Evolves w') : w'.WorkerGone := by
  obtain ⟨u, found⟩ := h
  exact ⟨u, evolves.final found rfl⟩

theorem Joined.evolves (h : w.Joined) (evolves : w.Evolves w') : w'.Joined := by
  obtain ⟨u, r, found, ended⟩ := h
  refine ⟨u, r, evolves.final found rfl, fun v member => ?_⟩
  obtain ⟨q, pump, gone⟩ := ended v member
  exact ⟨q, evolves.final pump (by simp [EngineTask.isEnded, gone]), gone⟩

/-- What a pipeline that stands somewhere can rely on. -/
def Accords (w : Engine) : Pipeline → Prop
  | .draining _ result => w.Brought result
  | .running _ _ r => ∃ u : TaskId, w.tasks[u]? = some (.startup (.ended (.ok r)))
  | .stopping _ _ r result =>
    (∃ u : TaskId, w.tasks[u]? = some (.startup (.ended (.ok r)))) ∧
      (result = .ok () ∨ w.SourceGone ∨ w.WorkerGone)
  | .ended result => w.SourceGone ∧ (w.Brought result ∨ w.gate = .synced)
  | _ => True

theorem Accords.evolves (h : w.Accords state) (evolves : w.Evolves w') (lasts : Lasts w w') :
    w'.Accords state := by
  cases state with
  | fresh | syncing | failing | opening => trivial
  | draining source result => exact Brought.evolves h evolves
  | running source worker r =>
      obtain ⟨u, found⟩ := h
      exact ⟨u, evolves.final found rfl⟩
  | stopping source worker r result =>
      obtain ⟨⟨u, found⟩, reason⟩ := h
      refine ⟨⟨u, evolves.final found rfl⟩, ?_⟩
      exact reason.imp_right (Or.imp (·.evolves evolves) (·.evolves evolves))
  | ended result =>
      refine ⟨h.1.evolves evolves, h.2.imp (·.evolves evolves) fun synced => ?_⟩
      exact (lasts.gate (by simp [synced])).trans synced

/-- Whoever has a worker has seen the gate open. -/
theorem synced_of_has (run : conduct.Run (ofPlan options plan) past w)
    (has : w.Has u (.worker .asking)) : w.gate = .synced := by
  obtain ⟨task, found, resembles⟩ := has
  cases task with
  | worker => exact (vouched_of_run run).tasks u _ found
  | _ => exact resembles.elim

theorem not_synced_of_failed (run : conduct.Run (ofPlan options plan) past w)
    (failed : w.Failed u e) : w.gate ≠ .synced := by
  intro synced
  cases synced.symm.trans ((agrees_of_run run).startup failed)

theorem not_failed_of_opening (run : conduct.Run (ofPlan options plan) past w)
    {source startup : TaskId} (found : w.tasks[t]? = some (.pipeline (.opening source startup))) :
    ¬ w.Failed u e :=
  fun failed => not_synced_of_failed run failed ((vouched_of_run run).tasks t _ found)

/-- A pipeline that takes a turn can rely on what it has seen. -/
theorem accords_of_turn (run : conduct.Run (ofPlan options plan) past w) (h : w.Accords state)
    (found : w.tasks[t]? = some (.pipeline state)) (turn : PipelineTurn w state state') :
    w.Accords state' := by
  have grounded := (watchful_of_run run).grounded t _ found
  cases turn with
  | stays => exact h
  | begins | opens | fails => trivial
  | @drains _ startup result told => exact ⟨startup, result, eq_of_startupResult told, rfl⟩
  | drained result stopped => exact ⟨⟨_, grounded.source_ended stopped⟩, .inl h⟩
  | misses source told => exact absurd (eq_of_startupResult told) (not_failed_of_opening run found)
  | @runs _ startup r told => exact ⟨startup, eq_of_startupResult told⟩
  | stops r reason =>
      refine ⟨h, ?_⟩
      obtain ⟨-, well⟩ | ⟨ended, -⟩ | ⟨stopped, -⟩ := stopReason_cases reason
      · exact .inl well
      · exact .inr (.inl ⟨_, grounded.1.source_ended ended⟩)
      · exact .inr (.inr ⟨_, grounded.2.1.worker_stopped stopped⟩)
  | ends result stopped =>
      exact ⟨⟨_, grounded.1.source_ended stopped.1⟩, .inr (synced_of_has run grounded.2.1)⟩

theorem accords_of_run (run : conduct.Run (ofPlan options plan) past w)
    (found : w.tasks[t]? = some (.pipeline state)) : w.Accords state := by
  induction run generalizing state with
  | start => simp [ofPlan] at found
  | next run possible ih =>
      have watchful := watchful_of_run run
      have passes := passes_after watchful possible
      obtain ⟨old, there, turn, -⟩ | rfl := pipeline_was watchful possible found
      · exact (accords_of_turn run (ih there) there turn).evolves passes.evolves passes.lasts
      · trivial

end Reasons

section Workers

/-! ### Whose the worker is -/

def Employed (w : Engine) : Prop :=
  ∀ (u : TaskId) (s : Worker), w.tasks[u]? = some (.worker s) →
    ∃ (t : TaskId) (state : Pipeline), w.tasks[t]? = some (.pipeline state) ∧
      state.Employs u s

/-- Only a pipeline that has seen the gate open starts a worker. -/
theorem opening_of_begets {s : Worker} (begets : w.Begets x (.worker s)) :
    ∃ t source startup, x = .move t ∧
      w.tasks[t]? = some (.pipeline (.opening source startup)) := by
  cases x with
  | move t =>
      obtain ⟨task, found, bears⟩ := begets
      cases task with
      | pipeline state =>
          cases state with
          | opening source startup => exact ⟨t, source, startup, rfl, found⟩
          | fresh => simp [EngineTask.Bears] at bears
          | _ => exact bears.elim
      | startup state => cases state <;> simp [EngineTask.Bears] at bears
      | worker state => simp [EngineTask.Bears] at bears
      | _ => exact bears.elim
  | elapse time => exact begets.elim
  | command c =>
      cases c with
      | join alone => cases alone <;> simp [Begets, Command.Calls] at begets
      | _ => simp [Begets, Command.Calls] at begets

theorem employs_of_begins {source startup : TaskId} {s : Worker}
    (found : w.tasks[t]? = some (.pipeline (.opening source startup))) (late : w.tasks[u]? = none)
    (works : (w.act t).1.tasks[u]? = some (.worker s)) :
    ∃ r, (w.act t).1.tasks[t]? = some (.pipeline (.running source u r)) := by
  have other : t ≠ u := by
    rintro rfl
    cases late.symm.trans found
  simp only [act, found, actPipeline] at works ⊢
  split at works
  · cases late.symm.trans works
  · rw [setTask, List.getElem?_set_ne other] at works
    cases late.symm.trans works
  · rename_i r told
    rw [setTask, List.getElem?_set_ne other] at works
    obtain there | ⟨rfl, -⟩ := spawn_was works
    · cases late.symm.trans there
    · exact ⟨r, setTask_self (spawn_found found) _⟩

theorem employs_of_turn {s s' : Worker} (watchful : w.Watchful)
    (pipeline : w.tasks[t]? = some (.pipeline state)) (works : w.tasks[u]? = some (.worker s))
    (becomes : (EngineTask.worker s).Becomes (.worker s')) (employs : state.Employs u s)
    (turn : PipelineTurn w state state') : state'.Employs u s' := by
  have stays (stopped : s = .stopped) : s' = .stopped := by
    subst stopped
    simpa using becomes.final rfl
  cases turn with
  | stays =>
      cases state with
      | running | stopping => exact employs
      | ended => exact stays employs
      | fresh | syncing | failing | draining | opening => exact employs.elim
  | stops => exact employs
  | ends result stopped =>
      obtain ⟨-, has, -⟩ := watchful.grounded t _ pipeline
      obtain rfl := employs
      cases works.symm.trans (has.worker_stopped stopped.2)
      exact stays rfl
  | begins | opens | fails | drains | drained | misses | runs => exact employs.elim

theorem Employed.after (h : w.Employed) (watchful : w.Watchful)
    (possible : conduct.Possible past w x) : (conduct.after w x).Employed := by
  intro u s' works'
  have passes := passes_after watchful possible
  cases there : w.tasks[u]? with
  | none =>
      obtain begets | ⟨q, -, same, -⟩ := passes.new u _ there works'
      · -- a new worker is that of the pipeline that has just seen startup end well
        obtain ⟨t, source, startup, rfl, pipeline⟩ := opening_of_begets begets
        obtain ⟨schedule, same⟩ := w.after_eq (.move t)
        rw [same] at works' ⊢
        obtain ⟨r, pipeline'⟩ := employs_of_begins pipeline there works'
        exact ⟨t, _, pipeline', rfl⟩
      · cases same
  | some old =>
      obtain ⟨new, found', becomes⟩ := passes.evolves u old there
      cases works'.symm.trans found'
      cases old with
      | worker s =>
          obtain ⟨t, state, pipeline, employs⟩ := h u s there
          obtain ⟨state', pipeline', turn, -⟩ := pipelineTurn_after watchful possible pipeline
          exact ⟨t, state', pipeline',
            employs_of_turn watchful pipeline there becomes employs turn⟩
      | _ => exact becomes.resembles.elim

theorem employed_of_run (run : conduct.Run (ofPlan options plan) past w) : w.Employed := by
  induction run with
  | start => simp [Employed, ofPlan]
  | next run possible ih => exact ih.after (watchful_of_run run) possible

end Workers

section Ends

/-! ### What has ended when a pipeline has -/

/-- A pipeline that has seen the gate open goes on, or has ended after its worker and its
streams. -/
def Upholds (w : Engine) : Pipeline → Prop
  | .opening .. | .running .. | .stopping .. => True
  | .ended _ => w.WorkerGone ∧ w.Joined
  | _ => False

theorem Upholds.evolves (h : w.Upholds state) (evolves : w.Evolves w') : w'.Upholds state := by
  cases state with
  | ended => exact ⟨h.1.evolves evolves, h.2.evolves evolves⟩
  | opening | running | stopping => trivial
  | fresh | syncing | failing | draining => exact h.elim

theorem joined_of_manned {r : Registration}
    (startup : w.tasks[u]? = some (.startup (.ended (.ok r)))) (manned : w.Manned r.pumps [])
    (ended : ∀ v ∈ r.pumps, w.hasEnded v = true) : w.Joined := by
  refine ⟨u, r, startup, fun v member => ?_⟩
  obtain ⟨gvk, pump⟩ := manned.pumps v member
  exact pump.pump_ended (ended v member)

theorem upholds_of_turn (run : conduct.Run (ofPlan options plan) past w) (h : w.Upholds state)
    (found : w.tasks[t]? = some (.pipeline state)) (turn : PipelineTurn w state state') :
    w.Upholds state' := by
  cases turn with
  | stays => exact h
  | runs | stops => trivial
  | misses source told => exact absurd (eq_of_startupResult told) (not_failed_of_opening run found)
  | ends result stopped joined =>
      obtain ⟨-, works, manned, -⟩ := (watchful_of_run run).grounded t _ found
      obtain ⟨⟨u, startup⟩, -⟩ := accords_of_run run found
      exact ⟨⟨_, works.worker_stopped stopped.2⟩, joined_of_manned startup manned joined⟩
  | begins | opens | fails | drains | drained => exact h.elim

/-- What a pipeline that has seen the gate open owes to its worker and its streams. -/
def UpheldBy (w : Engine) (t : TaskId) : Prop :=
  ∃ state, w.tasks[t]? = some (.pipeline state) ∧ w.Upholds state

theorem UpheldBy.after (h : w.UpheldBy t) (run : conduct.Run (ofPlan options plan) past w)
    (possible : conduct.Possible past w x) : (conduct.after w x).UpheldBy t := by
  obtain ⟨state, found, opened⟩ := h
  have watchful := watchful_of_run run
  obtain ⟨state', found', turn, -⟩ := pipelineTurn_after watchful possible found
  exact ⟨state', found', (upholds_of_turn run opened found turn).evolves
    (passes_after watchful possible).evolves⟩

end Ends

section Spontaneous

/-! ### What fails by itself -/

/-- What has led to where a task stands as long as nobody has cancelled in time. -/
def Unprompted (w : Engine) : EngineTask → Prop
  | .startup (.ended (.error e)) => e ≠ .cancelled
  | .pipeline (.failing ..) | .pipeline (.draining ..) => w.gate = .cancelled
  | .pipeline (.stopping _ _ _ result) => result ≠ .ok ()
  | .pipeline (.ended result) => w.gate = .cancelled ∨ w.gate = .synced ∧ result ≠ .ok ()
  | _ => True

/-- What holds as long as nobody has cancelled in time. -/
structure Spontaneous (w : Engine) : Prop where
  /-- The token has fired only after startup has failed, or because a pipeline stops. -/
  fired : w.fired = true → w.gate = .cancelled ∨ ∃ (t : TaskId) (state : Pipeline),
    w.tasks[t]? = some (.pipeline state) ∧ state.isOver = true
  /-- Every task stands where it does for a reason. -/
  tasks : ∀ (t : TaskId) (task : EngineTask), w.tasks[t]? = some task → w.Unprompted task

theorem Unprompted.lasts (h : w.Unprompted task) (lasts : Lasts w w') : w'.Unprompted task := by
  have closed (cancelled : w.gate = .cancelled) : w'.gate = .cancelled :=
    (lasts.gate (by simp [cancelled])).trans cancelled
  have opened (synced : w.gate = .synced) : w'.gate = .synced :=
    (lasts.gate (by simp [synced])).trans synced
  unfold Unprompted at h ⊢
  split
  · exact h
  · exact closed h
  · exact closed h
  · exact h
  · exact h.imp closed (And.imp_left opened)
  · trivial

/-- Where the token has fired although the gate is not closed, the pipeline stops. -/
theorem Spontaneous.closed (h : w.Spontaneous) (sole : w.Sole) (fired : w.fired = true)
    (found : w.tasks[t]? = some (.pipeline state)) (goes_on : state.isOver = false) :
    w.gate = .cancelled := by
  obtain closed | ⟨u, other, there, stopped⟩ := h.fired fired
  · exact closed
  · obtain rfl := sole.one .pipeline u t _ _ there found rfl rfl
    cases there.symm.trans found
    cases goes_on.symm.trans stopped

theorem unprompted_of_turn (run : conduct.Run (ofPlan options plan) past w)
    (h : w.Spontaneous) (found : w.tasks[t]? = some (.pipeline state))
    (turn : PipelineTurn w state state') : w.Unprompted (.pipeline state') := by
  have unprompted := h.tasks t _ found
  have watchful := watchful_of_run run
  have grounded := watchful.grounded t _ found
  cases turn with
  | stays => exact unprompted
  | begins | opens | runs => trivial
  | fails source startup told =>
      show w.gate = .cancelled
      by_cases fired : w.fired = true
      · exact h.closed watchful.sole fired found rfl
      · cases gate : w.gate <;> simp [SyncState.answer?, gate, fired] at told
        rfl
  | drains => exact unprompted
  | drained => exact .inl unprompted
  | misses source told => exact absurd (eq_of_startupResult told) (not_failed_of_opening run found)
  | stops r reason =>
      rintro rfl
      have synced := synced_of_has run grounded.2.1
      obtain ⟨fired, -⟩ | ⟨-, failed⟩ | ⟨-, failed⟩ := stopReason_cases reason
      · cases synced.symm.trans (h.closed watchful.sole fired found rfl)
      · cases failed
      · cases failed
  | ends => exact .inr ⟨synced_of_has run grounded.2.1, unprompted⟩

/-- While startup is on its way the token has not fired. -/
theorem Spontaneous.unfired (h : w.Spontaneous)
    (run : conduct.Run (ofPlan options plan) past w) (pending : w.gate = .pending) :
    w.fired = false := by
  by_contra fired
  obtain closed | ⟨t, state, found, stopped⟩ := h.fired (by simpa using fired)
  · cases pending.symm.trans closed
  · have unprompted := h.tasks t _ found
    cases state with
    | fresh | syncing | opening | running => cases stopped
    | failing | draining => cases pending.symm.trans unprompted
    | stopping =>
        have grounded := (watchful_of_run run).grounded t _ found
        cases pending.symm.trans (synced_of_has run grounded.2.1)
    | ended =>
        obtain closed | ⟨synced, -⟩ := unprompted
        · cases pending.symm.trans closed
        · cases pending.symm.trans synced

theorem uncancelled_of_turn {s : Startup} (run : conduct.Run (ofPlan options plan) past w)
    (candid : Candid past) (h : w.Spontaneous) (found : w.tasks[t]? = some (.startup s))
    (turn : StartupTurn w s (.ended (.error e))) : e ≠ .cancelled := by
  by_cases was : s = .ended (.error e)
  · exact h.tasks t _ (was ▸ found)
  · intro cancelled
    -- startup has just ended, so the gate was pending, and the token fires only later
    have fired := ((turn.cancelled was).2 cancelled).resolve_right (candid.not_refuses run)
    have pending : w.gate = .pending := by
      rw [(agrees_of_run run).startup found]
      cases s with
      | fresh | hydrating => rfl
      | ended =>
          cases turn
          exact absurd rfl was
    cases (h.unfired run pending).symm.trans fired

/-- As long as nobody cancels before startup has failed, whatever fails fails by itself. -/
theorem spontaneous_of_run (run : conduct.Run (ofPlan options plan) past w)
    (candid : Candid past)
    (late : ∀ entry ∈ past, entry.2 = .command .cancel → ∃ u e, entry.1.Failed u e) :
    w.Spontaneous := by
  induction run with
  | start => exact ⟨by simp [ofPlan], by simp [ofPlan]⟩
  | @next past w x run possible ih =>
      have candid : Candid past := fun entry member =>
        candid entry (List.mem_append_left _ member)
      have ih := ih candid fun entry member => late entry (List.mem_append_left _ member)
      have watchful := watchful_of_run run
      have lasts := (passes_after watchful possible).lasts
      have closed (cancelled : w.gate = .cancelled) : (conduct.after w x).gate = .cancelled :=
        (lasts.gate (by simp [cancelled])).trans cancelled
      refine ⟨fun fires => ?_, fun t task found => ?_⟩
      · by_cases cancels : x = .command .cancel
        · obtain ⟨u, e, failed⟩ := late (w, x) (by simp) cancels
          exact .inl (closed ((agrees_of_run run).startup failed))
        · obtain fired | new := fired_after cancels fires
          · obtain cancelled | ⟨t, state, found, stopped⟩ := ih.fired fired
            · exact .inl (closed cancelled)
            · obtain ⟨state', found', turn, -⟩ := pipelineTurn_after watchful possible found
              exact .inr ⟨t, state', found', turn.isOver stopped⟩
          · exact .inr new
      · show (conduct.after w x).Unprompted task
        cases task with
        | startup s =>
            cases s with
            | ended result =>
                cases result with
                | ok r => trivial
                | error e =>
                    obtain ⟨old, there, turn, -⟩ | new := startup_was watchful possible found
                    · exact uncancelled_of_turn run candid ih there turn
                    · cases new
            | fresh | hydrating => trivial
        | pipeline state =>
            obtain ⟨old, there, turn, -⟩ | rfl := pipeline_was watchful possible found
            · exact (unprompted_of_turn run ih there turn).lasts lasts
            · trivial
        | _ => trivial

end Spontaneous

section Cancelled

/-! ### What a cancellation in time comes to -/

/-- A cancellation comes in time: startup has not failed, and the pipeline waits for the gate
or neither the source nor the worker has ended. -/
def InTime (w : Engine) : Prop :=
  (∀ (u : TaskId) (e : WatchError), ¬ w.Failed u e) ∧
    ∀ (t : TaskId) (state : Pipeline), w.tasks[t]? = some (.pipeline state) →
      state.awaitsGate = true ∨ ¬ w.SourceGone ∧ ¬ w.WorkerGone

/-- What holds once somebody has cancelled in time. -/
structure Calm (w : Engine) : Prop where
  fired : w.fired = true
  /-- Startup fails only because of the cancellation. -/
  startup : ∀ (u : TaskId) (e : WatchError), w.Failed u e → e = .cancelled
  /-- A pipeline comes to no error. -/
  pipeline : ∀ (t : TaskId) (state : Pipeline) (result : PipelineResult),
    w.tasks[t]? = some (.pipeline state) → state.outcome? = some result → result = .ok ()

theorem Brought.ok (h : w.Brought result)
    (calm : ∀ (u : TaskId) (e : WatchError), w.Failed u e → e = .cancelled) : result = .ok () := by
  obtain ⟨u, outcome, found, rfl⟩ := h
  cases outcome with
  | ok r => rfl
  | error e =>
      obtain rfl := calm u e found
      rfl

/-- A pipeline that is cancelled in time has come to no error yet. -/
theorem ok_of_inTime (run : conduct.Run (ofPlan options plan) past w) (inTime : w.InTime)
    (found : w.tasks[t]? = some (.pipeline state)) (outcome : state.outcome? = some result) :
    result = .ok () := by
  have accords := accords_of_run run found
  have calm (u : TaskId) (e : WatchError) (failed : w.Failed u e) : e = .cancelled :=
    absurd failed (inTime.1 u e)
  have stands := inTime.2 t state found
  cases state with
  | fresh | syncing | failing | opening | running => cases outcome
  | draining source result =>
      cases outcome
      exact accords.ok calm
  | stopping source worker r result =>
      cases outcome
      obtain ⟨source, worker⟩ := stands.resolve_left (by simp [Pipeline.awaitsGate])
      exact accords.2.resolve_right fun gone => gone.elim source worker
  | ended result =>
      obtain ⟨source, -⟩ := stands.resolve_left (by simp [Pipeline.awaitsGate])
      exact absurd accords.1 source

theorem calm_of_cancel (run : conduct.Run (ofPlan options plan) past w) (inTime : w.InTime) :
    (conduct.after w (.command .cancel)).Calm := by
  have tasks : (conduct.after w (.command .cancel)).tasks = w.tasks := w.fire_tasks
  refine ⟨w.fire_fired, fun u e failed => ?_, fun t state result found outcome => ?_⟩
  · rw [Failed, tasks] at failed
    exact absurd failed (inTime.1 u e)
  · exact ok_of_inTime run inTime (tasks ▸ found) outcome

theorem Calm.after (h : w.Calm) (run : conduct.Run (ofPlan options plan) past w)
    (possible : conduct.Possible past w x) : (conduct.after w x).Calm := by
  have watchful := watchful_of_run run
  refine ⟨(passes_after watchful possible).lasts.fired h.fired, fun u e failed => ?_,
    fun t state' result found outcome => ?_⟩
  -- startup looks at the token before it looks at its streams, and the pipeline before it
  -- looks at its source and its worker
  · obtain ⟨old, there, turn, -⟩ | new := startup_was watchful possible failed
    · by_cases was : old = .ended (.error e)
      · subst was
        exact h.startup u e there
      · exact (turn.cancelled was).1 h.fired
    · cases new
  · obtain ⟨state, there, turn, -⟩ | rfl := pipeline_was watchful possible found
    · have before := h.pipeline t state
      cases turn with
      | stays => exact before result there outcome
      | drains source told =>
          cases outcome
          exact Brought.ok ⟨_, _, eq_of_startupResult told, rfl⟩ h.startup
      | misses source told =>
          exact absurd (eq_of_startupResult told) (not_failed_of_opening run there)
      | stops r reason =>
          simp only [stopReason?, h.fired, if_true] at reason
          cases reason
          exact (Option.some.inj outcome).symm
      | drained | ends => exact before result there outcome
      | begins | opens | fails | runs => cases outcome
    · cases outcome

/-- Once somebody has cancelled in time, whatever fails fails because of that. -/
theorem calm_of_run (run : conduct.Run (ofPlan options plan) past w) :
    ∀ entry ∈ past, entry.2 = .command .cancel ∧ entry.1.InTime → w.Calm := by
  refine run.since (P := fun entry w => entry.2 = .command .cancel ∧ entry.1.InTime → w.Calm)
    ?_ fun run possible ih now => (ih now).after run possible
  rintro past w x run - ⟨rfl, inTime⟩
  exact calm_of_cancel run inTime

end Cancelled

section Verdict

/-! ### What a pipeline comes to -/

theorem beforeSync_of_own (own : e ≠ .cancelled) : beforeSync (.error e) = .error (.watch e) := by
  cases e <;> first | rfl | exact absurd rfl own

theorem Brought.failed (h : w.Brought result) (sole : w.Sole) (failed : w.Failed u e)
    (own : e ≠ .cancelled) : result = .error (.watch e) := by
  obtain ⟨v, outcome, found, rfl⟩ := h
  obtain rfl := sole.one .startup v u _ _ found failed rfl rfl
  cases found.symm.trans failed
  exact beforeSync_of_own own

/-- As long as nobody has cancelled in time, a startup that has closed the gate brings an
error. -/
theorem Brought.not_ok (h : w.Brought result) (agrees : w.Agrees) (spontaneous : w.Spontaneous)
    (closed : w.gate = .cancelled) : result ≠ .ok () := by
  obtain ⟨u, outcome, found, rfl⟩ := h
  cases outcome with
  | ok r => cases closed.symm.trans (agrees.startup found)
  | error e =>
      have own : e ≠ .cancelled := spontaneous.tasks u _ found
      simp [beforeSync_of_own own]

/-- A pipeline whose startup has failed by itself comes to the error of startup. -/
theorem outcome_of_failed (run : conduct.Run (ofPlan options plan) past w)
    (failed : w.Failed u e) (own : e ≠ .cancelled)
    (found : w.tasks[t]? = some (.pipeline state)) (outcome : state.outcome? = some result) :
    result = .error (.watch e) := by
  have sole := (watchful_of_run run).sole
  have accords := accords_of_run run found
  cases state with
  | fresh | syncing | failing | opening | running => cases outcome
  | draining source result =>
      cases outcome
      exact accords.failed sole failed own
  | stopping source worker r result =>
      have grounded := (watchful_of_run run).grounded t _ found
      exact absurd (synced_of_has run grounded.2.1) (not_synced_of_failed run failed)
  | ended result =>
      cases outcome
      exact (accords.2.resolve_right (not_synced_of_failed run failed)).failed sole failed own

/-- A pipeline that ends well was cancelled before startup had failed. -/
theorem cancelled_of_ok (run : conduct.Run (ofPlan options plan) past w) (candid : Candid past)
    (found : w.tasks[t]? = some (.pipeline state)) (well : state.outcome? = some (.ok ())) :
    ∃ entry ∈ past, entry.2 = .command .cancel ∧ ∀ u e, ¬ entry.1.Failed u e := by
  by_contra! late
  -- if every cancellation was late, whatever made the pipeline stop is an error
  have spontaneous := spontaneous_of_run run candid late
  have agrees := agrees_of_run run
  have unprompted := spontaneous.tasks t _ found
  have accords := accords_of_run run found
  cases state with
  | fresh | syncing | failing | opening | running => cases well
  | draining source result =>
      cases well
      exact accords.not_ok agrees spontaneous unprompted rfl
  | stopping source worker r result =>
      cases well
      exact unprompted rfl
  | ended result =>
      cases well
      obtain closed | ⟨-, failed⟩ := unprompted
      · obtain brought | synced := accords.2
        · exact brought.not_ok agrees spontaneous closed rfl
        · cases closed.symm.trans synced
      · exact failed rfl

/-- A pipeline that has ended has let its source and its worker end. -/
theorem ended_of_run (run : conduct.Run (ofPlan options plan) past w)
    (found : w.tasks[t]? = some (.pipeline (.ended result))) :
    (∀ (u : TaskId) s recording, w.tasks[u]? = some (.source s recording) → s = .ended) ∧
      ∀ (u : TaskId) s, w.tasks[u]? = some (.worker s) → s = .stopped := by
  have sole := (watchful_of_run run).sole
  refine ⟨fun u s recording receives => ?_, fun u s works => ?_⟩
  · obtain ⟨v, recording', ended⟩ := (accords_of_run run found).1
    obtain rfl := sole.one .source v u _ _ ended receives rfl rfl
    cases ended.symm.trans receives
    rfl
  · obtain ⟨v, state, pipeline, employs⟩ := employed_of_run run u s works
    obtain rfl := sole.one .pipeline v t _ _ pipeline found rfl rfl
    cases pipeline.symm.trans found
    exact employs

/-- A pipeline that has seen the gate open at some moment has a worker when it has ended, and
all of its streams have ended. -/
theorem joined_of_run (run : conduct.Run (ofPlan options plan) past w)
    {entry : Engine × Happening Command} (member : entry ∈ past)
    (before : entry.1.tasks[t]? = some (.pipeline state)) (opened : state.hasOpened = true)
    (found : w.tasks[t]? = some (.pipeline (.ended result))) : w.WorkerGone ∧ w.Joined := by
  have since := run.since (P := fun entry w => entry.1.UpheldBy t → w.UpheldBy t)
    (fun run possible opened => opened.after run possible)
    fun run possible ih opened => (ih opened).after run possible
  have opening : entry.1.Upholds state := by
    cases state with
    | opening | running | stopping => trivial
    | fresh | syncing | failing | draining | ended => cases opened
  obtain ⟨state', pipeline, opened'⟩ := since entry member ⟨state, before, opening⟩
  cases pipeline.symm.trans found
  exact opened'

/-- Where nobody else opens streams, all of them are those of startup. -/
theorem Joined.all (h : w.Joined) (run : ownedConduct.Run (ofPlan options plan) past w)
    {q : Pump} (found : w.tasks[v]? = some (.pump q)) : q.state = .ended := by
  obtain ⟨u, r, startup, ended⟩ := h
  have sole := (watchful_of_run (conduct_of_owned run)).sole
  have member : v ∈ r.pumps := (supplied_of_run run).owned sole startup v q found
  obtain ⟨q', found', gone⟩ := ended v member
  cases found.symm.trans found'
  exact gone

end Verdict

/-- What a pipeline comes to tells why it stopped. Unless the provider refuses a stream with a
cancellation, it comes to a good end only if it was cancelled before startup had failed, and
if startup fails before anybody cancels, it comes to the error of startup. If it is cancelled
in time, it comes to a good end. When nothing can move it has ended, unless a key is still
being reconciled. By then its source has ended, and so have its worker and its streams, if it
has seen the gate open. -/
theorem tells_why_of_run (run : conduct.Run (ofPlan options plan) past w)
    (found : w.tasks[t]? = some (.pipeline state)) :
    (Candid past → state.outcome? = some (.ok ()) →
      ∃ entry ∈ past, entry.2 = .command .cancel ∧ ∀ u e, ¬ entry.1.Failed u e) ∧
    (Candid past → ∀ u e, w.Failed u e →
      (∀ entry ∈ past, entry.2 = .command .cancel → entry.1.Failed u e) →
      e ≠ .cancelled ∧
      (∀ result, state.outcome? = some result → result = .error (.watch e)) ∧
      (Cooperative.Idle w → state = .ended (.error (.watch e)))) ∧
    ((∃ entry ∈ past, entry.2 = .command .cancel ∧ entry.1.InTime) →
      (∀ result, state.outcome? = some result → result = .ok ()) ∧
      (Cooperative.Idle w →
        (∀ (u : TaskId) key result due,
          w.tasks[u]? ≠ some (.worker (.working key result due))) →
        state = .ended (.ok ()))) ∧
    (∀ result, state = .ended result →
      (∀ (u : TaskId) s recording, w.tasks[u]? = some (.source s recording) → s = .ended) ∧
      (∀ (u : TaskId) s, w.tasks[u]? = some (.worker s) → s = .stopped) ∧
      ((∃ entry ∈ past, ∃ before, entry.1.tasks[t]? = some (.pipeline before) ∧
          before.hasOpened = true) →
        w.WorkerGone ∧ w.Joined ∧ ((∀ entry ∈ past, entry.2 ≠ .command .register) →
          ∀ (v : TaskId) q, w.tasks[v]? = some (.pump q) → q.state = .ended))) := by
  refine ⟨fun candid => cancelled_of_ok run candid found, fun candid u e failed late => ?_,
    fun inTime => ?_, ?_⟩
  · have spontaneous := spontaneous_of_run run candid fun entry member cancels =>
      ⟨u, e, late entry member cancels⟩
    have own : e ≠ .cancelled := spontaneous.tasks u _ failed
    refine ⟨own, fun result => outcome_of_failed run failed own found, fun idle => ?_⟩
    obtain ⟨result, rfl⟩ := pipeline_of_failed failed run idle found
    rw [outcome_of_failed run failed own found rfl]
  · obtain ⟨entry, member, cancels⟩ := inTime
    have calm := calm_of_run run entry member cancels
    refine ⟨fun result => calm.pipeline t state result found, fun idle free => ?_⟩
    obtain ⟨result, rfl⟩ := pipeline_of_idle calm.fired run idle free found
    rw [calm.pipeline t _ result found rfl]
  · rintro result rfl
    obtain ⟨source, worker⟩ := ended_of_run run found
    refine ⟨source, worker, ?_⟩
    rintro ⟨entry, member, before, there, opened⟩
    obtain ⟨worker, joined⟩ := joined_of_run run member there opened found
    exact ⟨worker, joined, fun unaided v q pump => joined.all (owned_of_conduct run unaided) pump⟩

/-- The second stream ends before its first list is complete, startup fails, and then the
token fires, before the pipeline has been told. -/
def cancelledLate : List (Happening Command) :=
  .command .run :: [0, 0, 1, 1, 2, 2, 3, 4].map .move ++
  [.command (.closeStream secret), .move 4,
    .command (.arrive configMap (.item (.ok .hydrated))), .move 3, .move 2,
    .command .cancel]

/-- Whether the provider is told to refuse a stream. -/
def refuses : Happening Command → Bool
  | .command (.failOn ..) => true
  | _ => false

theorem candid_of_all (all : past.all (fun entry => !refuses entry.2) = true) : Candid past := by
  intro entry member gvk given
  have told := List.all_eq_true.1 all entry member
  rw [given] at told
  cases told

/-- The pipeline that finds the token fired and startup failed comes to the error of
startup. -/
theorem tells_why_of_cancelledLate :
    ∃ past w, conduct.Run (ofPlan slowOptions twoKinds) past w ∧ Candid past ∧
      (∃ entry ∈ past, entry.2 = .command .cancel ∧
        ∃ before, entry.1.tasks[0]? = some (.pipeline before) ∧ before.awaitsGate = true) ∧
      w.Failed 2 (.streamClosed secret) ∧
      (∀ entry ∈ past, entry.2 = .command .cancel → entry.1.Failed 2 (.streamClosed secret)) ∧
      Cooperative.Idle w ∧
      w.tasks[0]? = some (.pipeline (.ended (.error (.watch (.streamClosed secret))))) := by
  have begun : conduct.Run (ofPlan slowOptions twoKinds) [] (ofPlan slowOptions twoKinds) := .start
  obtain ⟨past, w, run, candid, cancelled, fails, late, pipeline, ready⟩ :
      ∃ past w, conduct.Run (ofPlan slowOptions twoKinds) past w ∧
        past.all (fun entry => !refuses entry.2) = true ∧
        past.any (fun entry => cancels entry.2 &&
          entry.1.tasks[0]?.any (·.isPipeline Pipeline.awaitsGate)) = true ∧
        w.tasks[2]?.any (·.failsWith (.streamClosed secret)) = true ∧
        past.all (fun entry => !cancels entry.2 ||
          entry.1.tasks[2]?.any (·.failsWith (.streamClosed secret))) = true ∧
        w.tasks[0]?.any (·.isPipeline fun _ => true) = true ∧ w.shop.schedule.ready = [] :=
    ⟨_, _, begun.follow (cancelledLate ++ [0, 0, 0, 1, 3, 0].map .move) (by decide +kernel),
      by decide +kernel⟩
  obtain ⟨entry, member, shows⟩ := List.any_eq_true.1 cancelled
  obtain ⟨cancel, waits⟩ := Bool.and_eq_true_iff.1 shows
  have late : ∀ entry ∈ past, entry.2 = .command .cancel →
      entry.1.Failed 2 (.streamClosed secret) := fun entry member cancel =>
    failed_of_any (by simpa [cancels_iff.2 cancel] using List.all_eq_true.1 late entry member)
  obtain ⟨state, found, -⟩ := pipeline_of_any pipeline
  obtain ⟨-, failed, -⟩ := tells_why_of_run run found
  have candid := candid_of_all candid
  obtain ⟨-, -, ends⟩ := failed candid 2 _ (failed_of_any fails) late
  exact ⟨past, w, run, candid, ⟨entry, member, cancels_iff.1 cancel, pipeline_of_any waits⟩,
    failed_of_any fails, late, idle_iff.2 ready, ends (idle_iff.2 ready) ▸ found⟩

end Engine

end ResourceWatch
