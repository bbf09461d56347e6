import ResourceWatch.Proofs.Engine.Resting

/-!
# The pipeline and its worker rest only when they are blocked

A worker that rests waits for the bell, or reconciles a key, or has ended because the
queue is closed. A pipeline that rests waits for one of its tasks, and each of its tasks
is of the sort that the pipeline takes it for. A pipeline that stops has let the token
fire and has closed the queue.
-/

namespace ResourceWatch

namespace Workshop

variable {s s' : Workshop} {key : String}

theorem Quiet.serves (quiet : Quiet s s') (bell : s'.bell = s.bell) :
    s.toDesk.Serves s'.toDesk := by
  refine .of ?_ (by rw [bell]) (by rw [quiet.queue])
  rw [quiet.schedule]
  exact .refl _

@[simp] theorem log_bell (events : List LogEvent) : (events.foldl log s).bell = s.bell := by
  induction events generalizing s with
  | nil => rfl
  | cons e events ih => exact ih

@[simp] theorem enter_bell (s : Workshop) (key : String) (result : ReconcileResult) :
    (s.enter key result).1.bell = s.bell := by
  simp only [enter]
  split <;> rfl

@[simp] theorem begin_bell (s : Workshop) (key : String) : (s.begin key).1.bell = s.bell := by
  rw [begin]
  dsimp only
  split
  · rfl
  · exact log_bell _
  · rfl

theorem serves_note (s : Workshop) (o : Occurrence) : s.toDesk.Serves (s.note o).toDesk :=
  .of (.refl _) rfl rfl

theorem serves_begin (s : Workshop) (key : String) : s.toDesk.Serves (s.begin key).1.toDesk :=
  (serves_note s _).trans ((quiet_begin s key).serves (begin_bell s key))

end Workshop

namespace Worker

variable {s : Workshop} {key : String} {t fresh : TaskId} {result : ReconcileResult}

/-- A worker with a result asks again, and whoever is to push its key later is ready. -/
theorem settle_spec (s : Workshop) (key : String) (result : ReconcileResult) (fresh : TaskId) :
    let move := settle s key result fresh
    s.toDesk.Serves move.workshop.toDesk ∧ move.worker = .asking ∧ move.progress = .goesOn ∧
      (move.retry ≠ none → fresh ∈ move.workshop.schedule.ready) := by
  let told := s.note (.reconciled key result s.schedule.now)
  have entered : s.toDesk.Serves (told.enter key result).1.toDesk :=
    (Workshop.serves_note s _).trans
      ((Workshop.quiet_enter told key result).serves (Workshop.enter_bell told key result))
  simp only [settle]
  split
  · rename_i s₁ same
    simp only [told, same] at entered
    exact ⟨entered.trans (Desk.serves_finish _ key), rfl, rfl, by simp⟩
  · rename_i s₁ delay same
    simp only [told, same] at entered
    have woken : s₁.toDesk.Serves (s₁.toDesk.wake fresh) :=
      .of (Schedule.serves_wake _ _) rfl rfl
    have finished := (s₁.toDesk.wake fresh).serves_finish key
    refine ⟨(entered.trans woken).trans finished, rfl, rfl, fun _ => ?_⟩
    exact finished.keeps fresh (Schedule.mem_wake.2 (.inr rfl))

/-- What a worker does: the desk serves everybody; a push that is put off is ready; and a
worker that rests without a key waits for the bell, or has ended because the queue is
closed. -/
structure Minds (s : Workshop) (t fresh : TaskId) (move : Move) : Prop where
  serves : s.toDesk.Serves move.workshop.toDesk
  retries : move.retry ≠ none → move.worker ≠ .stopped ∧ fresh ∈ move.workshop.schedule.ready
  waits : move.progress = .rests → move.worker = .asking → t ∈ move.workshop.bell.waiting
  stops : move.worker = .stopped → move.workshop.queue.closed = true

theorem minds_settle {s₁ : Workshop} (serves : s.toDesk.Serves s₁.toDesk) :
    Minds s t fresh (settle s₁ key result fresh) := by
  obtain ⟨settles, worker, progress, ready⟩ := settle_spec s₁ key result fresh
  refine ⟨serves.trans settles, fun retry => ⟨by simp [worker], ready retry⟩, ?_, ?_⟩
  · simp [progress]
  · simp [worker]

theorem minds_act (s : Workshop) (t fresh : TaskId) (state : Worker)
    (stopped : state = .stopped → s.queue.closed = true) :
    Minds s t fresh (act s t fresh state) := by
  cases state with
  | stopped => exact ⟨.refl _, by simp [act], by simp [act], fun _ => stopped rfl⟩
  | working key result due =>
      simp only [act]
      split
      · exact minds_settle (Workshop.serves_note s _)
      · exact ⟨.refl _, by simp, by simp, by simp⟩
  | asking =>
      have asks := s.toDesk.serves_ask t
      have waits := Desk.mem_waiting_of_ask (d := s.toDesk) (t := t)
      have final := Desk.closed_of_ask (d := s.toDesk) (t := t)
      simp only [act]
      split
      · rename_i desk key answered
        rw [answered] at asks
        have begins := asks.trans (Workshop.serves_begin { s with toDesk := desk } key)
        split
        · exact minds_settle begins
        · exact ⟨begins.trans (.of (Schedule.serves_setTimer _ _ _) rfl rfl), by simp, by simp,
            by simp⟩
      all_goals
        rename_i desk answered
        rw [answered] at asks waits final
      · exact ⟨asks.trans (Workshop.serves_note { s with toDesk := desk } _), by simp, by simp,
          fun _ => asks.closed (final rfl)⟩
      · exact ⟨asks, by simp, by simp, by simp⟩
      · exact ⟨asks, by simp, fun _ _ => waits rfl, by simp⟩

end Worker

def EngineTask.Bears : EngineTask → EngineTask → Prop
  | .pipeline .fresh, task => task = .source .fresh false ∨ task = .startup .fresh
  | .pipeline (.opening ..), task => task = .worker .asking
  | .startup .fresh, task => ∃ gvk, task = .pump { gvk }
  | .worker _, task => ∃ key millis, task = .delayed key (.fresh millis)
  | _, _ => False

namespace Engine

variable {w w' w'' : Engine} {t u : TaskId} {task new : EngineTask} {actor : Option TaskId}
  {born : EngineTask → Prop}

/-- A pipeline goes on after it has done what heeds everybody. -/
theorem attends_pipeline_goesOn {state next : Pipeline}
    (found : w.tasks[t]? = some (.pipeline state)) (heeds : Heeds none born w w')
    (runs : (EngineTask.pipeline state).isEnded = false)
    (later : (EngineTask.pipeline next).isEnded = false) (begun : next ≠ .fresh)
    (grounded : w.Evolves w' → w'.Grounded (.pipeline next)) :
    Attends born t w (w'.setTask t (.pipeline next), .goesOn) := by
  have found' := heeds.found (by simp) found (by simp)
  have turned : Heeds (some t) born w' (w'.setTask t (.pipeline next)) :=
    heeds_setTask found' id (fun _ => later) id id
  have becomes : (EngineTask.pipeline state).Becomes (.pipeline next) :=
    .of (fun again => absurd again begun) runs
  refine .goesOn found ((heeds.weaken _).trans turned) (setTask_self found' _) becomes fun _ => ?_
  exact (grounded (heeds.evolves (by simp))).heeds (evolves_setTask found' becomes) turned

/-- Only a startup that has its streams hands over a registration. -/
theorem manned_of_startupResult {r : Registration}
    (grounds : ∀ (u : TaskId) (task : EngineTask), w.tasks[u]? = some task → w.Grounded task)
    (opened : w.startupResult? u = some (.ok r)) : w.Manned r.pumps [] ∧ w.spare = false :=
  (grounds u _ (eq_of_startupResult opened)).2

section Pipeline

variable (unawaited : ∀ (u : TaskId) (other : EngineTask), w.tasks[u]? = some other →
  other.awaits t = false)
include unawaited

theorem attends_actPipeline {state : Pipeline} (found : w.tasks[t]? = some (.pipeline state))
    (grounds : ∀ (u : TaskId) (task : EngineTask), w.tasks[u]? = some task → w.Grounded task)
    (bears : ∀ task, (EngineTask.pipeline state).Bears task → born task) :
    Attends born t w (w.actPipeline t state) := by
  have grounded := grounds t _ found
  have ends (result : PipelineResult) (runs : (EngineTask.pipeline state).isEnded = false) :
      Attends born t w (w.setTask t (.pipeline (.ended result)), .rests) :=
    .rests found (heeds_unawaited found rfl unawaited) (setTask_self found _)
      (.of (by simp [EngineTask.Resembles]) runs) (fun _ => trivial) trivial
  cases state with
  | fresh =>
      have source : Heeds none born w (w.spawn (.source .fresh false)) :=
        heeds_spawn (bears _ (.inl rfl)) rfl
      have startup : Heeds none born (w.spawn (.source .fresh false))
          ((w.spawn (.source .fresh false)).spawn (.startup .fresh)) :=
        heeds_spawn (bears _ (.inr rfl)) rfl
      refine attends_pipeline_goesOn found (source.trans startup) rfl rfl (by simp)
        fun _ => ⟨?_, ?_⟩
      · have there : (w.spawn (.source .fresh false)).Has w.nextTask (.source .fresh false) :=
          ⟨_, List.getElem?_concat_length, .refl _⟩
        exact there.evolves (startup.evolves (by simp))
      · refine ⟨.startup .fresh, ?_, .refl _⟩
        have at_end : ((w.spawn (.source .fresh false)).spawn (.startup .fresh)).tasks[
            (w.spawn (.source .fresh false)).tasks.length]? = some (.startup .fresh) :=
          List.getElem?_concat_length
        rwa [spawn_length] at at_end
  | syncing source startup =>
      simp only [actPipeline]
      split
      · rename_i told
        exact .stays found grounded told
      · exact attends_pipeline_goesOn found (heeds_refl w) rfl rfl (by simp) fun _ => grounded
      · exact attends_pipeline_goesOn found (heeds_fire w) rfl rfl (by simp)
          fun e => ⟨grounded.1.evolves e, grounded.2.evolves e⟩
  | failing source startup =>
      simp only [actPipeline]
      split
      · rename_i told
        exact .stays found grounded told
      · rename_i result _
        cases result with
        | error e =>
            exact attends_pipeline_goesOn found (heeds_refl w) rfl rfl (by simp)
              fun _ => grounded.1
        | ok r =>
            exact attends_pipeline_goesOn found (heeds_abort w r.pumps) rfl rfl (by simp)
              fun e => grounded.1.evolves e
  | draining source result =>
      simp only [actPipeline]
      split
      · exact ends _ rfl
      · rename_i runs
        exact .stays found grounded (by simpa [Blocked] using runs)
  | opening source startup =>
      simp only [actPipeline]
      split
      · rename_i told
        exact .stays found grounded told
      · exact ends _ rfl
      · rename_i r opened
        have spawned : Heeds none born w (w.spawn (.worker .asking)) :=
          heeds_spawn (bears _ rfl) rfl
        obtain ⟨manned, unspared⟩ := manned_of_startupResult grounds opened
        refine attends_pipeline_goesOn found spawned rfl rfl (by simp) fun e => ?_
        exact ⟨grounded.1.evolves e, ⟨_, List.getElem?_concat_length, .refl _⟩,
          manned.evolves e, unspared⟩
  | running source worker r =>
      simp only [actPipeline]
      split
      · rename_i told
        exact .stays found grounded told
      · have closes : Heeds none born w (w.fire.onDesk Desk.close) :=
          (heeds_fire w).trans (heeds_onDesk (Desk.serves_close _))
        refine attends_pipeline_goesOn found closes rfl rfl (by simp) fun e => ?_
        exact ⟨grounded.1.evolves e, grounded.2.1.evolves e, grounded.2.2.1.evolves e,
          fire_fired w, rfl⟩
  | stopping source worker r result =>
      simp only [actPipeline]
      split
      · exact ends _ rfl
      · rename_i runs
        refine .stays found grounded ?_
        simpa [Blocked, or_assoc, Classical.or_iff_not_imp_left] using runs
  | ended result =>
      exact .rests found (heeds_unawaited found rfl unawaited) (setTask_self found _) (.refl _)
        (fun _ => trivial) trivial

end Pipeline

theorem attends_actWorker {state : Worker} (found : w.tasks[t]? = some (.worker state))
    (grounded : w.Grounded (.worker state))
    (bears : ∀ task, (EngineTask.worker state).Bears task → born task) :
    Attends born t w (w.actWorker t state) := by
  have minds : Worker.Minds w.shop t w.nextTask (state.act w.shop t w.nextTask) := by
    refine Worker.minds_act _ _ _ _ ?_
    rintro rfl
    exact grounded
  have becomes : (EngineTask.worker state).Becomes
      (.worker (state.act w.shop t w.nextTask).worker) := by
    refine ⟨trivial, fun ended => ?_⟩
    cases state with
    | stopped => rfl
    | asking | working => cases ended
  have known := (List.getElem?_eq_some_iff.1 found).1
  simp only [actWorker]
  generalize state.act w.shop t w.nextTask = move at minds becomes ⊢
  let w₁ := { w with shop := move.workshop }
  have found₁ : w₁.tasks[t]? = some (.worker state) := found
  have worked : Heeds (some t) born w w₁ := heeds_alike minds.serves rfl rfl rfl
  have blocked (w' : Engine) (bell : w'.shop.bell = move.workshop.bell)
      (rests : move.progress = .rests) : w'.Blocked t (.worker move.worker) := by
    cases stands : move.worker with
    | asking => exact (congrArg (t ∈ ·.waiting) bell).mpr (minds.waits rests stands)
    | working | stopped => trivial
  have grounds (w' : Engine) (queue : w'.shop.queue = move.workshop.queue) :
      w'.Grounded (.worker move.worker) := by
    cases stands : move.worker with
    | stopped => exact (congrArg WorkQueue.closed queue).trans (minds.stops stands)
    | asking | working => trivial
  cases retry : move.retry with
  | none =>
      simp only [Option.map_none, Option.toList_none, List.append_nil]
      have turned := setTask_self found₁ (.worker move.worker)
      split
      · have told : Heeds (some t) born w₁ ((w₁.setTask t (.worker move.worker)).wakeAwaiting t) :=
          heeds_wakeAwaiting found₁ (by simp [EngineTask.isLivePump])
        exact .turns found (worked.trans told) turned becomes (fun _ => grounds _ rfl)
          (blocked _ rfl)
      · rename_i runs
        have later : (EngineTask.worker move.worker).isEnded = false := by
          simpa [hasEnded, known] using runs
        exact .turns found (worked.trans (heeds_setTask found₁ id (fun _ => later) id id)) turned
          becomes (fun _ => grounds _ rfl) (blocked _ rfl)
  | some entry =>
      obtain ⟨later, ready⟩ := minds.retries (by simp [retry])
      have runs : (EngineTask.worker move.worker).isEnded = false := by
        cases stands : move.worker with
        | stopped => exact absurd stands later
        | asking | working => rfl
      have turned : (w₁.setTask t (.worker move.worker)).tasks[t]? = some (.worker move.worker) :=
        setTask_self found₁ _
      have turns : Heeds (some t) born w₁ (w₁.setTask t (.worker move.worker)) :=
        heeds_setTask found₁ id (fun _ => runs) id id
      have next : (w₁.setTask t (.worker move.worker)).nextTask = w.nextTask :=
        List.length_set
      have bred : born (.delayed entry.1 (.fresh entry.2)) := bears _ ⟨_, _, rfl⟩
      have entered := (worked.trans turns).trans
        (heeds_append (next ▸ ready) bred rfl)
      have there : (w.tasks.set t (.worker move.worker) ++
          [.delayed entry.1 (.fresh entry.2)])[t]? = some (.worker move.worker) :=
        (List.getElem?_append_left (by simpa using known)).trans turned
      split
      · rename_i ended
        simp [hasEnded, there, runs] at ended
      · exact .turns found entered there becomes (fun _ => grounds _ rfl) (blocked _ rfl)

end Engine

end ResourceWatch
