import ResourceWatch.Proofs.Engine.Backfill
import ResourceWatch.Proofs.Engine.Turns

/-!
# A pipeline stops when nobody is left to watch

A pipeline that runs alone and is not cancelled looks at its source and its worker, not at
its pumps. A pump that ends tells nobody; the source ends when the last of them has ended,
because nobody can write to the channel any more, and then the pipeline stops with an
error that names the source. So the streams of all kinds but one may end, and the pipeline
goes on as if they were still watched.
-/

namespace ResourceWatch

/-- Whether a pipeline stops, or has ended. -/
def Pipeline.isOver : Pipeline → Bool
  | .failing .. | .draining .. | .stopping .. | .ended _ => true
  | _ => false

/-- What a pipeline that stops or has ended comes to. -/
def Pipeline.outcome? : Pipeline → Option PipelineResult
  | .draining _ result | .stopping _ _ _ result | .ended result => some result
  | _ => none

/-- The result of a pipeline whose source has ended by itself. -/
def PipelineResult.sourceLost : PipelineResult := .error (.task .sourceStopped)

/-- Whether a task is a pipeline that stands somewhere. -/
def EngineTask.isPipeline (f : Pipeline → Bool) : EngineTask → Bool
  | .pipeline state => f state
  | _ => false

/-- Whether a task is a pipeline that goes on with a source, a worker and a pump among others. -/
def EngineTask.runsOn (source worker pump : TaskId) : EngineTask → Bool
  | .pipeline (.running source' worker' r) =>
      source' == source && worker' == worker && r.pumps.contains pump
  | _ => false

theorem EngineTask.runsOn_iff {task : EngineTask} {source worker pump : TaskId} :
    task.runsOn source worker pump = true ↔
      ∃ r, task = .pipeline (.running source worker r) ∧ pump ∈ r.pumps := by
  constructor
  · intro runs
    cases task with
    | pipeline state =>
        cases state <;> simp [runsOn] at runs
        obtain ⟨⟨rfl, rfl⟩, member⟩ := runs
        exact ⟨_, rfl, member⟩
    | _ => cases runs
  · rintro ⟨r, rfl, member⟩
    simp [runsOn, member]

namespace Path

variable {p p' : Path} {t : TaskId} {key : String} {gvk : Gvk} {f : Feed}

theorem Silent.become {r : Role} (h : p.Silent) (ended : ∀ q, r = .pump q → q.state = .ended) :
    (p.become t r).Silent := by
  refine ⟨h.1, fun u q pump => ?_⟩
  obtain ⟨-, same⟩ | ⟨-, was⟩ := become_role_eq_iff.1 pump
  · exact ended q same
  · exact h.2 u q was

theorem Silent.abandon {pumps : List TaskId} (h : p.Silent) : (p.abandon pumps).Silent := by
  refine ⟨h.1, fun u q pump => ?_⟩
  obtain was | ⟨q', was, live, -⟩ := role_of_abandon pump
  · exact h.2 u q was
  · exact absurd (h.2 u q' was) live

/-- Where nobody can write to the channel any more, no stream is opened either. -/
theorem Silent.step (h : p.Silent) (step : Step True p p') : p'.Silent := by
  cases step with
  | begin | «open» | fail | retire => exact h.become (by simp)
  | delegate t u => exact (h.become (t := u) (by simp)).become (by simp)
  | await t =>
      have given : Silent { p with spare := false } := ⟨rfl, h.2⟩
      exact given.become (by simp)
  | founder t opened spare pumps schedule starter dropped =>
      have gone : spare = false := by
        by_contra there
        cases h.1.symm.trans (dropped (by simpa using there))
      have given : Silent { p with gate := p.gate.settle .cancelled, spare } := ⟨gone, h.2⟩
      exact given.abandon.become (by simp)
  | forsake => exact h.abandon
  | stream t gvk store schedule new unfired spare => cases h.1.symm.trans (spare trivial)
  | report => exact h
  | pass t q item rest pump ready state | pick t q item rest e pump ready state =>
      cases state.symm.trans (h.2 t q pump)
  | send t q e pump ready state => cases state.symm.trans (h.2 t q pump)
  | finish t q schedule pump live => exact absurd (h.2 t q pump) live
  | conclude => exact h.become (by simp)
  | record t free => exact absurd trivial free
  | relinquish free => exact absurd trivial free
  | _ => exact h

theorem Silent.take (h : p.Silent) (take : Take t key p p') : p'.Silent := by
  obtain ⟨queue, time, result, -, -, -⟩ := take
  exact h.become (by simp)

theorem Silent.inflow (h : p.Silent) (inflow : Inflow gvk f p p') : p'.Silent := by
  obtain ⟨schedule, -, -⟩ := inflow
  exact h

end Path

namespace Engine

open ResourceWatch.Path

variable {options : EngineOptions} {plan : WatchPlan} {w w' : Engine} {t u : TaskId}
  {task : EngineTask} {x : Happening Command} {past : Past Engine Command}
  {state state' : Pipeline}

section Turns

inductive PipelineTurn (w : Engine) : Pipeline → Pipeline → Prop
  /-- It stays what it is. -/
  | stays (state : Pipeline) : PipelineTurn w state state
  /-- It starts its source and its startup. -/
  | begins (source startup : TaskId) : PipelineTurn w .fresh (.syncing source startup)
  /-- It has seen the gate open. -/
  | opens (source startup : TaskId) (told : w.gate.answer? w.fired = some (.ok ())) :
      PipelineTurn w (.syncing source startup) (.opening source startup)
  /-- It has seen the gate fail. -/
  | fails (source startup : TaskId) {e : WatchError}
      (told : w.gate.answer? w.fired = some (.error e)) :
      PipelineTurn w (.syncing source startup) (.failing source startup)
  /-- Startup has ended, and the source is to end. -/
  | drains (source : TaskId) {startup : TaskId} {result : Except WatchError Registration}
      (told : w.startupResult? startup = some result) :
      PipelineTurn w (.failing source startup) (.draining source (beforeSync result))
  /-- The source has ended. -/
  | drained {source : TaskId} (result : PipelineResult) (stopped : w.hasEnded source = true) :
      PipelineTurn w (.draining source result) (.ended result)
  /-- Startup hands over no streams. -/
  | misses (source : TaskId) {startup : TaskId} {e : WatchError}
      (told : w.startupResult? startup = some (.error e)) :
      PipelineTurn w (.opening source startup) (.ended (.error (.watch e)))
  /-- Startup hands over the streams. -/
  | runs (source : TaskId) {startup : TaskId} {r : Registration}
      (told : w.startupResult? startup = some (.ok r)) :
      PipelineTurn w (.opening source startup) (.running source w.nextTask r)
  /-- It has a reason to stop. -/
  | stops {source worker : TaskId} (r : Registration) {result : PipelineResult}
      (reason : w.stopReason? source worker = some result) :
      PipelineTurn w (.running source worker r) (.stopping source worker r result)
  /-- Everything has ended. -/
  | ends {source worker : TaskId} {r : Registration} (result : PipelineResult)
      (stopped : w.hasEnded source = true ∧ w.hasEnded worker = true)
      (joined : ∀ u ∈ r.pumps, w.hasEnded u = true) :
      PipelineTurn w (.stopping source worker r result) (.ended result)

theorem PipelineTurn.isOver (turn : PipelineTurn w state state') (stopped : state.isOver = true) :
    state'.isOver = true := by
  cases turn with
  | stays => exact stopped
  | drains | drained | ends => rfl
  | begins | opens | fails | misses | runs | stops => cases stopped

/-- A pipeline takes a turn when it goes on. It lets the token fire only in order to stop,
and does so unless it ends at once. -/
theorem pipelineTurn_act (found : w.tasks[t]? = some (.pipeline state)) :
    ∃ state', (w.act t).1.tasks[t]? = some (.pipeline state') ∧ PipelineTurn w state state' ∧
      ((w.act t).1.fired = true → w.fired = true ∨ state'.isOver = true) ∧
      (state.isOver = false → state'.isOver = true →
        (w.act t).1.fired = true ∨ ∃ result, state' = .ended result) := by
  have keeps {w' : Engine} {state : Pipeline} (goes_on : state.isOver = false)
      (stopped : state.isOver = true) :
      w'.fired = true ∨ ∃ result, state = .ended result := by
    cases goes_on.symm.trans stopped
  simp only [act, found]
  cases state with
  | fresh =>
      have source : Heeds none (fun _ => True) w (w.spawn (.source .fresh false)) :=
        heeds_spawn trivial rfl
      have startup : Heeds none (fun _ => True) (w.spawn (.source .fresh false))
          ((w.spawn (.source .fresh false)).spawn (.startup .fresh)) :=
        heeds_spawn trivial rfl
      have there := (source.trans startup).found (by simp) found (by simp)
      exact ⟨_, setTask_self there _, .begins _ _, .inl, fun _ stops => by cases stops⟩
  | syncing source startup =>
      simp only [actPipeline]
      split
      · exact ⟨_, found, .stays _, .inl, keeps⟩
      · rename_i told
        exact ⟨_, setTask_self found _, .opens _ _ told, .inl,
          fun _ stops => by cases stops⟩
      · rename_i e told
        have fires : Heeds none (fun _ => True) w w.fire := heeds_fire w
        exact ⟨_, setTask_self (fires.found (by simp) found (by simp)) _, .fails _ _ told,
          fun _ => .inr rfl, fun _ _ => .inl (fire_fired w)⟩
  | failing source startup =>
      simp only [actPipeline]
      split
      · exact ⟨_, found, .stays _, .inl, keeps⟩
      · rename_i result told
        cases result with
        | error e => exact ⟨_, setTask_self found _, .drains _ told, fun _ => .inr rfl,
            fun goes_on => by cases goes_on⟩
        | ok r =>
            have aborts : Heeds none (fun _ => True) w (w.abort r.pumps) := heeds_abort w _
            exact ⟨_, setTask_self (aborts.found (by simp) found (by simp)) _, .drains _ told,
              fun _ => .inr rfl, fun goes_on => by cases goes_on⟩
  | draining source result =>
      simp only [actPipeline]
      split
      · rename_i stopped
        exact ⟨_, setTask_self found _, .drained _ stopped, .inl, fun _ _ => .inr ⟨_, rfl⟩⟩
      · exact ⟨_, found, .stays _, .inl, keeps⟩
  | opening source startup =>
      simp only [actPipeline]
      split
      · exact ⟨_, found, .stays _, .inl, keeps⟩
      · rename_i e told
        exact ⟨_, setTask_self found _, .misses _ told, .inl, fun _ _ => .inr ⟨_, rfl⟩⟩
      · rename_i r told
        have spawns : Heeds none (fun _ => True) w (w.spawn (.worker .asking)) :=
          heeds_spawn trivial rfl
        exact ⟨_, setTask_self (spawns.found (by simp) found (by simp)) _, .runs _ told, .inl,
          fun _ stops => by cases stops⟩
  | running source worker r =>
      simp only [actPipeline]
      split
      · exact ⟨_, found, .stays _, .inl, keeps⟩
      · rename_i result reason
        have fires : Heeds none (fun _ => True) w w.fire := heeds_fire w
        exact ⟨_, setTask_self (w := w.fire.onDesk Desk.close)
          (fires.found (by simp) found (by simp)) _, .stops r reason, fun _ => .inr rfl,
          fun _ _ => .inl (fire_fired w)⟩
  | stopping source worker r result =>
      simp only [actPipeline]
      split
      · rename_i all
        simp only [Bool.and_eq_true, List.all_eq_true] at all
        exact ⟨_, setTask_self found _, .ends _ all.1 all.2, .inl,
          fun _ _ => .inr ⟨_, rfl⟩⟩
      · exact ⟨_, found, .stays _, .inl, keeps⟩
  | ended result => exact ⟨_, setTask_self found _, .stays _, .inl, keeps⟩

/-- Whatever happens, a pipeline takes a turn, and lets the token fire when it stops. -/
theorem pipelineTurn_after (h : w.Watchful) (possible : conduct.Possible past w x)
    (found : w.tasks[t]? = some (.pipeline state)) :
    ∃ state', (conduct.after w x).tasks[t]? = some (.pipeline state') ∧
      PipelineTurn w state state' ∧
      (state.isOver = false → state'.isOver = true →
        (conduct.after w x).fired = true ∨ ∃ result, state' = .ended result) := by
  obtain rfl | still := stays_after h possible found (by simp) (by simp)
  · obtain ⟨s, same⟩ := w.after_eq (.move t)
    obtain ⟨state', found', turn, -, halts⟩ := pipelineTurn_act found
    rw [same]
    exact ⟨state', found', turn, halts⟩
  · exact ⟨state, still, .stays _, fun goes_on stopped => by cases goes_on.symm.trans stopped⟩

/-- Every pipeline has taken a turn, or is new. -/
theorem pipeline_was (h : w.Watchful) (possible : conduct.Possible past w x)
    (found' : (conduct.after w x).tasks[t]? = some (.pipeline state')) :
    (∃ state, w.tasks[t]? = some (.pipeline state) ∧ PipelineTurn w state state' ∧
      (state.isOver = false → state'.isOver = true →
        (conduct.after w x).fired = true ∨ ∃ result, state' = .ended result)) ∨
    state' = .fresh := by
  obtain ⟨old, there, becomes⟩ | begins := (passes_after h possible).was found'
  · cases old with
    | pipeline state =>
        obtain ⟨state'', found'', turn, halts⟩ := pipelineTurn_after h possible there
        cases found'.symm.trans found''
        exact .inl ⟨state, there, turn, halts⟩
    | _ => exact becomes.resembles.elim
  · cases state' with
    | fresh => exact .inr rfl
    | _ => cases begins

end Turns

section Alone

/-- The channel is left alone by whoever leaves the pipeline to itself. -/
theorem channel_of_alone {c : Command} (left : c.leavesAlone = true) :
    (w.apply c).1.channel = w.channel := by
  cases c with
  | run =>
      simp only [apply]
      split <;> rfl
  | cancel => exact w.fire_channel
  | waitSync | arrive | closeStream | failOn | push => rfl
  | _ => cases left

/-- The token fires only when it is cancelled or a pipeline stops. -/
theorem fired_after (spared : x ≠ .command .cancel)
    (fires : (conduct.after w x).fired = true) :
    w.fired = true ∨ ∃ (t : TaskId) (state : Pipeline),
      (conduct.after w x).tasks[t]? = some (.pipeline state) ∧ state.isOver = true := by
  obtain ⟨s, same⟩ := w.after_eq x
  rw [same] at fires ⊢
  cases x with
  | elapse time => exact .inl fires
  | command c => exact .inl (((w.apply_spares c).fired (by simpa using spared)).symm.trans fires)
  | move t =>
      by_cases pipeline : ∃ state, w.tasks[t]? = some (.pipeline state)
      · obtain ⟨state, found⟩ := pipeline
        obtain ⟨state', found', -, stops, -⟩ := pipelineTurn_act found
        exact (stops fires).imp_right fun stopped => ⟨t, state', found', stopped⟩
      · exact .inl ((act_fired fun state found => pipeline ⟨state, found⟩).symm.trans fires)

/-- The channel is closed only when a source ends. -/
theorem closed_after (possible : aloneConduct.Possible past w x)
    (closed : (conduct.after w x).channel.closed = true) :
    w.channel.closed = true ∨ ∃ (t : TaskId) (recording : Bool),
      (conduct.after w x).tasks[t]? = some (.source .ended recording) := by
  obtain ⟨s, same⟩ := w.after_eq x
  rw [same] at closed ⊢
  cases x with
  | elapse time => exact .inl closed
  | command c =>
      have channel := channel_of_alone (w := w) possible
      exact .inl ((congrArg Channel.closed channel).symm.trans closed)
  | move t => exact (act_closed closed).imp_right fun ⟨recording, found⟩ => ⟨t, recording, found⟩

/-- Whoever leaves a pipeline to itself drives no tracker past its pump. -/
theorem allows_of_alone {c : Command} (allowed : aloneConduct.allows past c = true) :
    conduct.allows past c = true := by
  cases c <;> simp_all [conduct, Command.observes, aloneConduct, Command.leavesAlone]

theorem possible_of_alone (possible : aloneConduct.Possible past w x) :
    conduct.Possible past w x := by
  cases x with
  | move | elapse => exact possible
  | command c => exact allows_of_alone possible

theorem conduct_of_alone (run : aloneConduct.Run (ofPlan options plan) past w) :
    conduct.Run (ofPlan options plan) past w :=
  Conduct.Run.mono (c := aloneConduct) (fun _ _ => rfl) (fun _ _ => allows_of_alone) run

/-- A pipeline that runs alone is alone at every moment, and once nobody can write to its
channel any more, nobody ever can. -/
theorem silent_of_run (run : aloneConduct.Run (ofPlan options plan) past w) :
    (∀ entry ∈ past, entry.1.path.Silent → w.path.Silent) ∧ w.path.Lone := by
  have held := path_of_run True (P := fun past p => ∀ entry ∈ past, entry.1.path.Silent → p.Silent)
    (fun _ _ => rfl) ?_ (by simp) (fun _ => lone_ofPlan options plan) ?_ ?_ ?_ ?_ run
  · exact ⟨held.1, held.2 trivial⟩
  · intro past c allowed
    refine ⟨?_, fun _ => allowed⟩
    cases c <;> simp_all [Command.observes, aloneConduct, Command.leavesAlone]
  · exact fun h _ step entry member silent => (h entry member silent).step step
  · intro past w happening h _ _ entry member silent
    obtain old | last := List.mem_append.1 member
    · exact h entry old silent
    · cases List.mem_singleton.1 last
      exact silent
  · intro past w t key p' h _ take entry member silent
    obtain old | last := List.mem_append.1 member
    · exact (h entry old silent).take take
    · cases List.mem_singleton.1 last
      exact silent.take take
  · intro past w c gvk h _ _ inflow entry member silent
    obtain old | last := List.mem_append.1 member
    · exact (h entry old silent).inflow inflow
    · cases List.mem_singleton.1 last
      exact silent.inflow inflow

/-- What has led to where a task stands as long as nobody cancels the pipeline. Whatever
fails before the gate opens closes it; and what stops later does so because nobody can
write to the channel any more. -/
def Warranted (w : Engine) : EngineTask → Prop
  | .startup (.ended (.error _)) | .pipeline (.failing ..) | .pipeline (.draining ..) =>
    w.gate = .cancelled
  | .pipeline (.stopping _ _ _ result) => result = PipelineResult.sourceLost ∧ w.path.Silent
  | .pipeline (.ended result) =>
    w.gate = .cancelled ∨ result = PipelineResult.sourceLost ∧ w.path.Silent
  | _ => True

/-- What holds at every moment of a pipeline that runs alone and is not cancelled. -/
structure Unbidden (w : Engine) : Prop where
  /-- The token has fired only if a pipeline stops. -/
  fired : w.fired = true → ∃ (t : TaskId) (state : Pipeline),
    w.tasks[t]? = some (.pipeline state) ∧ state.isOver = true
  /-- The channel is closed only if a source has ended. -/
  closed : w.channel.closed = true → ∃ (t : TaskId) (recording : Bool),
    w.tasks[t]? = some (.source .ended recording)
  /-- Every task stands where it does for a reason. -/
  tasks : ∀ (t : TaskId) (task : EngineTask), w.tasks[t]? = some task → w.Warranted task

/-- The token has not fired while the pipeline goes on. -/
theorem Unbidden.unfired (h : w.Unbidden) (sole : w.Sole)
    (found : w.tasks[t]? = some (.pipeline state)) (goes_on : state.isOver = false) :
    w.fired = false := by
  by_contra fired
  obtain ⟨u, other, there, stopped⟩ := h.fired (by simpa using fired)
  obtain rfl := sole.one .pipeline u t _ _ there found rfl rfl
  cases there.symm.trans found
  cases goes_on.symm.trans stopped

theorem gate_of_result (h : w.Unbidden) {e : WatchError}
    (told : w.startupResult? t = some (.error e)) : w.gate = .cancelled :=
  h.tasks t _ (eq_of_startupResult told)

/-- A pipeline that stops without being told to has lost its source, because nobody can
write to the channel any more. -/
theorem lost_of_stopReason {source worker : TaskId} {r : Registration} {result : PipelineResult}
    (watchful : w.Watchful) (lone : w.path.Lone) (unfired : w.fired = false)
    (found : w.tasks[t]? = some (.pipeline (.running source worker r)))
    (reason : w.stopReason? source worker = some result) :
    result = PipelineResult.sourceLost ∧ w.path.Silent := by
  obtain ⟨receives, works, -⟩ := watchful.grounded t _ found
  obtain ⟨fired, -⟩ | ⟨ended, rfl⟩ | ⟨stopped, -⟩ := stopReason_cases reason
  · cases unfired.symm.trans fired
  · obtain ⟨recording, gone⟩ := receives.source_ended ended
    have closed := watchful.grounded source _ gone
    exact ⟨rfl, (lone.silent closed).resolve_left (by simp [unfired])⟩
  · have shut := watchful.grounded worker _ (works.worker_stopped stopped)
    cases unfired.symm.trans (lone.working shut)

theorem Warranted.lasts (h : w.Warranted task) (lasts : Lasts w w')
    (silent : w.path.Silent → w'.path.Silent) : w'.Warranted task := by
  have closed (cancelled : w.gate = .cancelled) : w'.gate = .cancelled :=
    (lasts.gate (by simp [cancelled])).trans cancelled
  unfold Warranted at h ⊢
  split
  · exact closed h
  · exact closed h
  · exact closed h
  · exact h.imp_right silent
  · exact h.imp closed (And.imp_right silent)
  · trivial

theorem warranted_of_turn (h : w.Unbidden) (watchful : w.Watchful) (lone : w.path.Lone)
    (found : w.tasks[t]? = some (.pipeline state)) (turn : PipelineTurn w state state') :
    w.Warranted (.pipeline state') := by
  have warranted := h.tasks t _ found
  have unfired := h.unfired watchful.sole found
  cases turn with
  | stays => exact warranted
  | begins | opens | runs => trivial
  | fails source startup told =>
      rw [unfired rfl] at told
      show w.gate = .cancelled
      cases gate : w.gate <;> simp [SyncState.answer?, gate] at told
      rfl
  | drains => exact warranted
  | drained => exact .inl warranted
  | misses source told => exact .inl (gate_of_result h told)
  | stops r reason => exact lost_of_stopReason watchful lone (unfired rfl) found reason
  | ends => exact .inr warranted

/-- A startup that fails closes the gate, which was not settled before. -/
theorem gate_of_turn {old : Startup} {e : WatchError} (h : w.Unbidden) (lone : w.path.Lone)
    (lasts : Lasts w w') (found : w.tasks[t]? = some (.startup old))
    (turn : StartupTurn w old (.ended (.error e)))
    (settles : w.Settles w' old (.ended (.error e))) : w'.gate = .cancelled := by
  have closes (pending : w.gate = .pending) (runs : old ≠ .ended (.error e)) :
      w'.gate = .cancelled := by
    rw [settles.resolve_left runs, pending]
    rfl
  cases old with
  | fresh => exact closes (lone.pending t false (role_eq found)) (by simp)
  | hydrating => exact closes (lone.pending t true (role_eq found)) (by simp)
  | ended result =>
      cases turn
      have cancelled : w.gate = .cancelled := h.tasks t _ found
      exact (lasts.gate (by simp [cancelled])).trans cancelled

theorem unbidden_of_run (run : aloneConduct.Run (ofPlan options plan) past w)
    (uncancelled : ∀ entry ∈ past, entry.2 ≠ .command .cancel) : w.Unbidden := by
  induction run with
  | start => exact ⟨by simp [ofPlan], by simp [ofPlan], by simp [ofPlan]⟩
  | @next past w x run possible ih =>
      have ih := ih fun entry member => uncancelled entry (List.mem_append_left _ member)
      have spared : x ≠ .command .cancel := uncancelled (w, x) (by simp)
      have watchful := watchful_of_run (conduct_of_alone run)
      have passes := passes_after watchful (possible_of_alone possible)
      have lone := (silent_of_run run).2
      have silent : w.path.Silent → (conduct.after w x).path.Silent :=
        (silent_of_run (run.next possible)).1 (w, x) (by simp)
      refine ⟨fun fires => ?_, fun closed => ?_, fun t task found => ?_⟩
      · obtain fired | new := fired_after spared fires
        · obtain ⟨t, state, found, stopped⟩ := ih.fired fired
          obtain ⟨state', found', turn, -⟩ :=
            pipelineTurn_after watchful (possible_of_alone possible) found
          exact ⟨t, state', found', turn.isOver stopped⟩
        · exact new
      · obtain closed | new := closed_after possible closed
        · obtain ⟨t, recording, found⟩ := ih.closed closed
          exact ⟨t, recording, passes.evolves.final found rfl⟩
        · exact new
      · show (conduct.after w x).Warranted task
        cases task with
        | startup state =>
            cases state with
            | ended result =>
                cases result with
                | ok r => trivial
                | error e =>
                    obtain ⟨old, there, turn, settles⟩ | new :=
                      startup_was watchful (possible_of_alone possible) found
                    · exact gate_of_turn ih lone passes.lasts there turn settles
                    · cases new
            | fresh | hydrating => trivial
        | pipeline state =>
            obtain ⟨old, there, turn, -⟩ | rfl :=
              pipeline_was watchful (possible_of_alone possible) found
            · exact (warranted_of_turn ih watchful lone there turn).lasts passes.lasts silent
            · trivial
        | _ => trivial

end Alone

section Idle

/-- Some stream is still watched. -/
def Watched (w : Engine) : Prop :=
  ∃ (t : TaskId) (q : Pump), w.tasks[t]? = some (.pump q) ∧ q.state ≠ .ended

theorem not_watched_of_silent (silent : w.path.Silent) : ¬ w.Watched := by
  rintro ⟨t, q, found, live⟩
  exact live (silent.2 t q (role_eq_pump.2 found))

/-- As long as a stream is watched, a pipeline whose gate has opened does not stop. -/
theorem goes_on_of_watched (h : w.Unbidden) (synced : w.gate = .synced)
    (found : w.tasks[t]? = some (.pipeline state)) (watched : w.Watched) :
    state.isOver = false := by
  have warranted := h.tasks t _ found
  have unclosed (cancelled : w.gate = .cancelled) : False := by
    cases synced.symm.trans cancelled
  cases state with
  | fresh | syncing | opening | running => rfl
  | failing | draining => exact (unclosed warranted).elim
  | stopping => exact absurd watched (not_watched_of_silent warranted.2)
  | ended =>
      obtain cancelled | ⟨-, silent⟩ := warranted
      · exact (unclosed cancelled).elim
      · exact absurd watched (not_watched_of_silent silent)

/-- A pipeline whose gate has opened and which can neither move nor stops is running. -/
theorem running_of_idle (h : w.Watchful) (lone : w.path.Lone) (synced : w.gate = .synced)
    (idle : Cooperative.Idle w) (found : w.tasks[t]? = some (.pipeline state))
    (goes_on : state.isOver = false) :
    ∃ source worker r, state = .running source worker r := by
  cases state with
  | running source worker r => exact ⟨source, worker, r, rfl⟩
  | fresh => exact (h.blocked idle found).elim
  | syncing source startup =>
      have untold : w.gate.answer? w.fired = none := h.blocked idle found
      cases fired : w.fired <;> simp [SyncState.answer?, synced, fired] at untold
  | opening source startup =>
      obtain ⟨-, task, begun, resembles⟩ := h.grounded t _ found
      have untold : w.startupResult? startup = none := h.blocked idle found
      cases task with
      | startup state =>
          cases state with
          | fresh => exact (h.blocked idle begun).elim
          | hydrating => cases synced.symm.trans (lone.pending startup true (role_eq begun))
          | ended => simp [startupResult?, begun] at untold
      | _ => exact resembles.elim
  | failing | draining | stopping | ended => cases goes_on

/-- A pipeline that keeps running when nothing can move has a stream that is watched. -/
theorem watched_of_running (h : w.Unbidden) (watchful : w.Watchful) (idle : Cooperative.Idle w)
    {source worker : TaskId} {r : Registration}
    (found : w.tasks[t]? = some (.pipeline (.running source worker r))) : w.Watched := by
  obtain ⟨⟨task, receives, resembles⟩, -, -, spare⟩ := watchful.grounded t _ found
  obtain ⟨-, runs, -⟩ := stopReason?_eq_none.1 (watchful.blocked idle found)
  cases task with
  | source state recording =>
      cases state with
      | fresh => exact (watchful.blocked idle receives).elim
      | ended => simp [hasEnded, receives, EngineTask.isEnded] at runs
      | running =>
          obtain ⟨-, -, closed | ⟨-, senders⟩⟩ := watchful.blocked idle receives
          · obtain ⟨u, _, ended⟩ := h.closed closed
            obtain rfl := watchful.sole.one .source u source _ _ ended receives rfl rfl
            cases ended.symm.trans receives
          · exact (hasSenders_iff.1 senders).resolve_left (by simp [spare])
  | _ => exact resembles.elim

/-- A pipeline that stops has ended when nothing can move, no stream is watched and no key
is in flight. -/
theorem not_stopping_of_idle (h : w.Watchful) (working : w.path.Working)
    (idle : Cooperative.Idle w) (unwatched : ¬ w.Watched) (free : w.shop.queue.inFlight = [])
    {source worker : TaskId} {r : Registration} {result : PipelineResult} :
    w.tasks[t]? ≠ some (.pipeline (.stopping source worker r result)) := by
  intro found
  obtain ⟨⟨task, receives, resembles⟩, ⟨task', works, resembles'⟩, manned, fired, shut⟩ :=
    h.grounded t _ found
  obtain runs | runs | ⟨u, member, runs⟩ := h.blocked idle found
  · cases task with
    | source state recording =>
        cases state with
        | fresh => exact h.blocked idle receives
        | running => simp [(h.blocked idle receives).1] at fired
        | ended => simp [hasEnded, receives, EngineTask.isEnded] at runs
    | _ => exact resembles
  · cases task' with
    | worker state =>
        cases state with
        | asking =>
            have waits : worker ∈ w.shop.bell.waiting := h.blocked idle works
            simp [h.shut shut] at waits
        | working key result due =>
            have held := working.held worker key result (role_eq works)
            simp [free] at held
        | stopped => simp [hasEnded, works, EngineTask.isEnded] at runs
    | _ => exact resembles'
  · obtain ⟨gvk, task, pump, is⟩ := manned.pumps u member
    cases task with
    | pump q =>
        refine unwatched ⟨u, q, pump, ?_⟩
        simpa [hasEnded, pump, EngineTask.isEnded] using runs
    | _ => exact is

/-- A pipeline that runs alone and is not cancelled goes on, once its gate has opened, for
as long as one stream is watched, however many others have ended. When nothing can move it
keeps running exactly if some stream is watched; otherwise it comes to an error that names
the source, and has ended unless a key is still being reconciled. -/
theorem outlives_of_run (run : aloneConduct.Run (ofPlan options plan) past w)
    (uncancelled : ∀ entry ∈ past, entry.2 ≠ .command .cancel) (synced : w.gate = .synced)
    (found : w.tasks[t]? = some (.pipeline state)) :
    (w.Watched → state.isOver = false ∧ w.fired = false) ∧
    (Cooperative.Idle w →
      (w.Watched ↔ ∃ source worker r, state = .running source worker r) ∧
      (¬ w.Watched → state.outcome? = some PipelineResult.sourceLost ∧
        (w.shop.queue.inFlight = [] → state = .ended PipelineResult.sourceLost))) := by
  have unbidden := unbidden_of_run run uncancelled
  have watchful := watchful_of_run (conduct_of_alone run)
  have lone := (silent_of_run run).2
  have goes_on := goes_on_of_watched unbidden synced found
  refine ⟨fun watched => ⟨goes_on watched, unbidden.unfired watchful.sole found (goes_on watched)⟩,
    fun idle => ⟨⟨fun watched => ?_, ?_⟩, fun unwatched => ?_⟩⟩
  · exact running_of_idle watchful lone synced idle found (goes_on watched)
  · rintro ⟨source, worker, r, rfl⟩
    exact watched_of_running unbidden watchful idle found
  · have stopped : state.isOver = true := by
      by_contra goes_on
      obtain ⟨source, worker, r, rfl⟩ :=
        running_of_idle watchful lone synced idle found (by simpa using goes_on)
      exact unwatched (watched_of_running unbidden watchful idle found)
    have warranted := unbidden.tasks t _ found
    have unclosed (cancelled : w.gate = .cancelled) : False := by
      cases synced.symm.trans cancelled
    cases state with
    | fresh | syncing | opening | running => cases stopped
    | failing | draining => exact (unclosed warranted).elim
    | stopping source worker r result =>
        have working := (followed_of_run run).2.1
        refine ⟨congrArg some warranted.1, fun free => ?_⟩
        exact absurd found (not_stopping_of_idle watchful working idle unwatched free)
    | ended result =>
        obtain rfl := (warranted.resolve_left unclosed).1
        exact ⟨rfl, fun _ => rfl⟩

end Idle

/-- Whether the token is made to fire from outside. -/
def cancels : Happening Command → Bool
  | .command .cancel => true
  | _ => false

/-- The streams of two kinds are opened and hydrated, and a worker asks for keys. -/
def bothWatched : List (Happening Command) :=
  .command .run :: [0, 0, 1, 1, 2, 2, 3, 4].map .move ++
  [.command (.arrive configMap (.item (.ok .hydrated))),
    .command (.arrive secret (.item (.ok .hydrated)))] ++
  [3, 3, 4, 4, 2, 0, 0, 0, 5].map .move

theorem cancels_iff : cancels x = true ↔ x = .command .cancel := by
  constructor
  · intro is
    unfold cancels at is
    split at is
    · rfl
    · cases is
  · rintro rfl
    rfl

theorem uncancelled_of_all (all : past.all (fun entry => !cancels entry.2) = true) :
    ∀ entry ∈ past, entry.2 ≠ .command .cancel := by
  intro entry member same
  simpa [cancels_iff.2 same] using List.all_eq_true.1 all entry member

theorem pipeline_of_any {f : Pipeline → Bool} (any : w.tasks[t]?.any (·.isPipeline f) = true) :
    ∃ state, w.tasks[t]? = some (.pipeline state) ∧ f state = true := by
  obtain ⟨task, found, is⟩ := (Option.any_eq_true _ _).1 any
  cases task with
  | pipeline state => exact ⟨state, found, is⟩
  | _ => cases is

/-- Both streams end, the second one first, and the pipeline comes to an error. -/
theorem outlives_of_bothWatched :
    ∃ past w state, aloneConduct.Run (ofPlan slowOptions twoKinds) past w ∧
      (∀ entry ∈ past, entry.2 ≠ .command .cancel) ∧ w.gate = .synced ∧
      w.tasks[0]? = some (.pipeline state) ∧ Cooperative.Idle w ∧ ¬ w.Watched ∧
      state = .ended PipelineResult.sourceLost := by
  have begun : aloneConduct.Run (ofPlan slowOptions twoKinds) [] (ofPlan slowOptions twoKinds) :=
    .start
  obtain ⟨past, w, run, all, synced, pipeline, ready, senders, free⟩ :
      ∃ past w, aloneConduct.Run (ofPlan slowOptions twoKinds) past w ∧
        past.all (fun entry => !cancels entry.2) = true ∧ w.gate = .synced ∧
        w.tasks[0]?.any (·.isPipeline fun _ => true) = true ∧
        w.shop.schedule.ready = [] ∧ w.hasSenders = false ∧ w.shop.queue.inFlight = [] :=
    ⟨_, _, begun.follow (bothWatched ++ [.command (.closeStream secret), .move 4,
      .command (.closeStream configMap)] ++ [3, 1, 0, 0, 5, 0].map .move) (by decide +kernel),
      by decide +kernel⟩
  obtain ⟨state, found, -⟩ := pipeline_of_any pipeline
  have uncancelled := uncancelled_of_all all
  have unwatched : ¬ w.Watched := not_watched_of_silent (silent_of_hasSenders senders)
  have outlives := outlives_of_run run uncancelled synced found
  exact ⟨past, w, state, run, uncancelled, synced, found, idle_iff.2 ready, unwatched,
    ((outlives.2 (idle_iff.2 ready)).2 unwatched).2 free⟩

/-- The second stream ends, and the pipeline goes on as if it were still watched. -/
theorem running_of_bothWatched :
    ∃ past w r q, aloneConduct.Run (ofPlan slowOptions twoKinds) past w ∧
      (∀ entry ∈ past, entry.2 ≠ .command .cancel) ∧ w.gate = .synced ∧
      w.tasks[0]? = some (.pipeline (.running 1 5 r)) ∧ 4 ∈ r.pumps ∧
      w.tasks[4]? = some (.pump q) ∧ q.gvk = secret ∧ q.state = .ended ∧
      w.fired = false ∧ Cooperative.Idle w := by
  have begun : aloneConduct.Run (ofPlan slowOptions twoKinds) [] (ofPlan slowOptions twoKinds) :=
    .start
  obtain ⟨past, w, run, all, synced, pipeline, ended, unfired, ready⟩ :
      ∃ past w, aloneConduct.Run (ofPlan slowOptions twoKinds) past w ∧
        past.all (fun entry => !cancels entry.2) = true ∧ w.gate = .synced ∧
        (w.tasks[0]?.any fun task => task.runsOn 1 5 4) = true ∧
        (w.pump? 4).any (fun q => q.gvk == secret && q.state == .ended) = true ∧
        w.fired = false ∧ w.shop.schedule.ready = [] :=
    ⟨_, _, begun.follow (bothWatched ++ [.command (.closeStream secret), .move 4])
      (by decide +kernel), by decide +kernel⟩
  obtain ⟨task, found, sort⟩ := (Option.any_eq_true _ _).1 pipeline
  obtain ⟨q, pump, fell⟩ := (Option.any_eq_true _ _).1 ended
  obtain ⟨kind, stopped⟩ : q.gvk = secret ∧ q.state = .ended := by simpa using fell
  obtain ⟨r, rfl, member⟩ := EngineTask.runsOn_iff.1 sort
  exact ⟨past, w, r, q, run, uncancelled_of_all all, synced, found, member,
    role_eq_pump.1 (pump?_eq_some.1 pump), kind, stopped, unfired, idle_iff.2 ready⟩

end Engine

end ResourceWatch
