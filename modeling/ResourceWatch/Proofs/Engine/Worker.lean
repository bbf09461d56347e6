import ResourceWatch.Proofs.Engine.Parts

/-!
# Workers on the path

A worker that is handed a key takes it, and begins to reconcile it at the same
moment. When the reconcile has a result, the worker reports the key done; what it
tells of the result and what it enters into the ledger does not matter to the
path.
-/

namespace ResourceWatch

namespace Workshop

/-- Nothing has happened that matters to the path: at most the log, the ledger and
the reconciler have changed. -/
structure Quiet (s s' : Workshop) : Prop where
  queue : s'.queue = s.queue
  schedule : s'.schedule = s.schedule
  cache : s'.cache = s.cache
  looks : s'.reconciler.plan? = s.reconciler.plan?
  milestones : s'.history.filter Occurrence.isMilestone =
    s.history.filter Occurrence.isMilestone

variable {s s' s'' : Workshop} {key : String}

theorem Quiet.refl (s : Workshop) : Quiet s s := ⟨rfl, rfl, rfl, rfl, rfl⟩

theorem Quiet.trans (h : Quiet s s') (h' : Quiet s' s'') : Quiet s s'' :=
  ⟨h'.queue.trans h.queue, h'.schedule.trans h.schedule, h'.cache.trans h.cache,
    h'.looks.trans h.looks, h'.milestones.trans h.milestones⟩

theorem quiet_note {o : Occurrence} (quiet : o.isMilestone = false) : Quiet s (s.note o) :=
  ⟨rfl, rfl, rfl, rfl, by simp [note, Desk.note, quiet]⟩

theorem quiet_log (events : List LogEvent) : Quiet s (events.foldl log s) := by
  induction events generalizing s with
  | nil => exact .refl s
  | cons e events ih => exact (quiet_note rfl).trans ih

theorem quiet_enter (s : Workshop) (key : String) (result : ReconcileResult) :
    Quiet s (s.enter key result).1 := by
  simp only [enter]
  split
  · exact ⟨rfl, rfl, rfl, rfl, rfl⟩
  · exact (quiet_note rfl).trans ⟨rfl, rfl, rfl, rfl, rfl⟩
  · have entered : Quiet s { s with ledger := s.ledger.record key } := ⟨rfl, rfl, rfl, rfl, rfl⟩
    exact entered.trans (quiet_note rfl)

theorem quiet_begin (s : Workshop) (key : String) :
    Quiet (s.note (.began key s.schedule.now)) (s.begin key).1 := by
  rw [begin]
  dsimp only
  split
  · rename_i script scripted
    exact ⟨rfl, rfl, rfl, by simp [scripted, Reconciler.plan?], rfl⟩
  · exact quiet_log _
  · rename_i asked answer answering
    exact ⟨rfl, rfl, rfl, by simp [answering, Reconciler.plan?], rfl⟩

/-- A reconcile that looks at the cache tells what it sees there. -/
theorem begin_of_looks {plan : WatchPlan} (looks : s.reconciler.plan? = some plan) (key : String) :
    (s.begin key).2.2 = (s.cache.observe plan key).1 := by
  cases reconciler : s.reconciler with
  | observing p =>
      obtain rfl : p = plan := by simpa [reconciler, Reconciler.plan?] using looks
      have noted : (s.note (.began key s.schedule.now)).reconciler = .observing p := reconciler
      simp only [begin, noted]
      rfl
  | scripted | answering => simp [reconciler, Reconciler.plan?] at looks

end Workshop

namespace Engine

open ResourceWatch.Path

variable {w : Engine} {t : TaskId} {key : String} {s s' : Workshop} (alone : Prop)

theorem path_quiet (quiet : Workshop.Quiet s s') :
    { w with shop := s' }.path = { w with shop := s }.path := by
  simp only [path, quiet.queue, quiet.schedule, quiet.cache, quiet.looks, quiet.milestones]
  rfl

/-- A worker becomes another one, and may start a push that is put off. -/
theorem path_setWorker (known : t < w.tasks.length) (worker : Worker)
    (retry : Option (String × Nat)) :
    { w with tasks := w.tasks.set t (.worker worker) ++ (retry.map fun (key, millis) =>
        EngineTask.delayed key (.fresh millis)).toList }.path =
      w.path.become t (EngineTask.worker worker).role := by
  have marked := path_setTask known (.worker worker)
  rw [← marked]
  cases retry with
  | none => simp [setTask]
  | some entry =>
      have same : ({ w with tasks := w.tasks.set t (.worker worker) ++
          [.delayed entry.1 (.fresh entry.2)] } : Engine).role =
          (w.setTask t (.worker worker)).role := by
        funext u
        simp only [role, setTask]
        obtain old | new := Nat.lt_or_ge u (w.tasks.set t (.worker worker)).length
        · simp only [List.getElem?_append_left old]
        · rw [List.getElem?_append_right new, List.getElem?_eq_none new]
          cases u - (w.tasks.set t (.worker worker)).length <;> rfl
      simp only [path]
      exact congrArg _ same

theorem stirs_conclude (w : Engine) (key : String) :
    Stirs (w.path.withQueue (w.shop.queue.finish key).1)
      { w with shop := w.shop.conclude key }.path := by
  refine ⟨w.channel.listener, (w.shop.toDesk.finish key).schedule, Desk.keeps_finish _ _, ?_⟩
  simp only [path, Workshop.conclude, Desk.finish_queue, Desk.finish_history]
  rfl

theorem steps_settle {result : ReconcileResult} (holder : w.role t = .holder key result) :
    Steps alone w.path
      ({ w with shop := (Worker.settle w.shop key result w.nextTask).workshop }.path.become t
        .bystander) := by
  let told := w.shop.note (.reconciled key result w.shop.schedule.now)
  have quiet : Workshop.Quiet told (told.enter key result).1 := Workshop.quiet_enter _ _ _
  have tells : { w with shop := told }.path =
      w.path.note (.reconciled key result w.shop.schedule.now) :=
    (w.path_note (.reconciled key result w.shop.schedule.now)).trans (if_pos rfl)
  have concludes : Step alone w.path
      (({ w with shop := (told.enter key result).1 }.path.withQueue
        ((told.enter key result).1.queue.finish key).1).become t .bystander) := by
    refine Step.to (.conclude t key result w.shop.schedule.now holder) ?_
    rw [path_quiet quiet, tells, quiet.queue]
    rfl
  simp only [Worker.settle]
  split
  · rename_i s₁ entered
    simp only [told, entered] at concludes
    exact .head concludes
      ((stirs_conclude { w with shop := s₁ } key).become t .bystander).steps
  · rename_i s₁ delay entered
    simp only [told, entered] at concludes
    have wakes : { w with shop := s₁ }.path.Stirs
        { w with shop := { s₁ with toDesk := s₁.toDesk.wake w.nextTask } }.path :=
      stirs_reschedule (Schedule.keeps_wake _ _)
    have queued := wakes.map (·.withQueue (s₁.queue.finish key).1) (fun _ _ => rfl) rfl
    exact .head concludes ((queued.trans (stirs_conclude
      { w with shop := { s₁ with toDesk := s₁.toDesk.wake w.nextTask } } key)).become t
        .bystander).steps

/-- A worker that has reported its key done holds none. -/
theorem settle_role (s : Workshop) (key : String) (result : ReconcileResult) (fresh : TaskId) :
    (EngineTask.worker (Worker.settle s key result fresh).worker).role = .bystander := by
  rw [Worker.settle]
  split <;> rfl

def handed (w : Engine) (t : TaskId) : Option String :=
  match w.tasks[t]? with
  | some (.worker .asking) =>
    match (w.shop.toDesk.ask t).2 with
    | .key key => some key
    | _ => none
  | _ => none

/-- Whatever a worker does, it is entered last, and whoever waits for it is told. -/
theorem stirs_actWorker (known : t < w.tasks.length) (state : Worker) :
    ({ w with shop := (state.act w.shop t w.nextTask).workshop }.path.become t
      (EngineTask.worker (state.act w.shop t w.nextTask).worker).role).Stirs
        (w.actWorker t state).1.path := by
  let move := state.act w.shop t w.nextTask
  let w' := { w with shop := move.workshop, tasks := w.tasks.set t (.worker move.worker) ++
    (move.retry.map fun (key, millis) => EngineTask.delayed key (.fresh millis)).toList }
  have entered : w'.path = { w with shop := move.workshop }.path.become t
      (EngineTask.worker move.worker).role :=
    path_setWorker (w := { w with shop := move.workshop }) known move.worker move.retry
  rw [← entered]
  show w'.path.Stirs (if w'.hasEnded t then w'.wakeAwaiting t else w').path
  split
  · exact stirs_wakeAll _ _
  · exact .refl _

theorem take_begin (w : Engine) {key : String} {queue : WorkQueue} (bell : Bell)
    (bystander : w.role t = .bystander) (taken : w.shop.queue.take? = some (key, queue)) :
    let s₁ : Workshop := { w.shop with toDesk := { w.shop.toDesk with queue, bell } }
    Take t key w.path
      ({ w with shop := (s₁.begin key).1 }.path.become t (.holder key (s₁.begin key).2.2)) := by
  intro s₁
  have began : Workshop.Quiet (s₁.note (.began key w.shop.schedule.now)) (s₁.begin key).1 :=
    Workshop.quiet_begin s₁ key
  have seen (plan : WatchPlan) (looks : w.path.looks = some plan) :
      ∃ cache : Cache, cache.store? = w.path.store ∧
        (s₁.begin key).2.2 = (cache.observe plan key).1 :=
    ⟨w.shop.cache, rfl, Workshop.begin_of_looks (s := s₁) looks key⟩
  have notes : { w with shop := s₁.note (.began key w.shop.schedule.now) }.path =
      { w with shop := s₁ }.path.note (.began key w.shop.schedule.now) :=
    ({ w with shop := s₁ }.path_note (.began key w.shop.schedule.now)).trans (if_pos rfl)
  rw [path_quiet began, notes]
  exact .take queue w.shop.schedule.now _ bystander taken seen

/-- A worker whose reconcile takes no time reports its key done at once. -/
theorem steps_settle_holder (known : t < w.tasks.length) (s : Workshop) (key : String)
    (result : ReconcileResult) :
    Steps alone ({ w with shop := s }.path.become t (.holder key result))
      ({ w with shop := (Worker.settle s key result w.nextTask).workshop }.path.become t
        (EngineTask.worker (Worker.settle s key result w.nextTask).worker).role) := by
  let w₂ := { w with shop := s }.setTask t (.worker (.working key result 0))
  have holds (s : Workshop) : { w₂ with shop := s }.path =
      { w with shop := s }.path.become t (.holder key result) :=
    path_setTask (w := { w with shop := s }) known _
  have found₂ : w₂.tasks[t]? = some (.worker (.working key result 0)) := by
    simp [w₂, setTask, known]
  have same_next : w₂.nextTask = w.nextTask := by simp [nextTask, w₂, setTask]
  have after := congrArg (·.become t .bystander)
    (holds (Worker.settle s key result w.nextTask).workshop)
  have settles := steps_settle alone (role_eq found₂)
  rw [same_next] at settles
  rw [settle_role, ← holds s]
  exact (after.trans become_become) ▸ settles

theorem advance_actWorker {state : Worker} (found : w.tasks[t]? = some (.worker state)) :
    Advance alone t (w.handed t) w.path (w.actWorker t state).1.path := by
  have known := (List.getElem?_eq_some_iff.1 found).1
  have last {p : Path} (handed : Option String)
      (h : Advance alone t handed p ({ w with shop :=
        (state.act w.shop t w.nextTask).workshop }.path.become t
          (EngineTask.worker (state.act w.shop t w.nextTask).worker).role)) :
      Advance alone t handed p (w.actWorker t state).1.path :=
    h.steps (stirs_actWorker known state).steps
  cases state with
  | stopped =>
      simp only [handed, found]
      refine last none ?_
      simp only [Worker.act]
      exact (become_eq_self (p := w.path) (role_eq found)).symm ▸ .refl
  | working key result due =>
      simp only [handed, found]
      refine last none ?_
      simp only [Worker.act]
      split
      · have noted : Workshop.Quiet w.shop (w.shop.note (.ended key w.shop.schedule.now)) :=
          Workshop.quiet_note rfl
        have settles := steps_settle alone (w := { w with
          shop := w.shop.note (.ended key w.shop.schedule.now) }) (role_eq found)
        rw [path_quiet noted] at settles
        rw [settle_role]
        exact settles
      · exact (become_eq_self (p := w.path) (role_eq found)).symm ▸ .refl
  | asking =>
      have bystander : w.role t = .bystander := role_eq found
      obtain ⟨key, queue, bell, taken, ask⟩ | ⟨bell, answer, ask, other⟩ :=
        w.shop.toDesk.ask_cases t
      · have is_handed : w.handed t = some key := by simp only [handed, found, ask]
        rw [is_handed]
        refine last (some key) ?_
        let s₁ : Workshop := { w.shop with toDesk := { w.shop.toDesk with queue, bell } }
        have takes := w.take_begin bell bystander taken
        refine ⟨_, takes, ?_⟩
        clear takes
        rcases begins : s₁.begin key with ⟨s₂, millis, result⟩
        have move : Worker.act w.shop t w.nextTask .asking =
            if millis = 0 then Worker.settle s₂ key result w.nextTask
            else
              let due := s₂.schedule.wakingTime millis
              { workshop := { s₂ with schedule := s₂.schedule.setTimer due t }
                worker := .working key result due
                progress := .rests } := by
          simp only [Worker.act, ask]
          simp only [s₁] at begins
          rw [begins]
        rw [move]
        split
        · exact steps_settle_holder alone known s₂ key result
        · refine Stirs.steps (Stirs.become ?_ t (.holder key result))
          exact stirs_reschedule (Schedule.keeps_setTimer _ _ _)
      · have not_handed : w.handed t = none := by
          cases answer <;> simp_all [handed]
        rw [not_handed]
        refine last none ?_
        let s₁ : Workshop := { w.shop with toDesk := { w.shop.toDesk with bell } }
        have bell_only : Workshop.Quiet w.shop s₁ := ⟨rfl, rfl, rfl, rfl, rfl⟩
        have quiet : Workshop.Quiet w.shop (Worker.act w.shop t w.nextTask .asking).workshop ∧
            (EngineTask.worker (Worker.act w.shop t w.nextTask .asking).worker).role =
              .bystander := by
          simp only [Worker.act, ask]
          cases answer with
          | key key => exact absurd rfl (other key)
          | noMore => exact ⟨bell_only.trans (Workshop.quiet_note rfl), rfl⟩
          | again => exact ⟨bell_only, rfl⟩
          | wait => exact ⟨bell_only, rfl⟩
        rw [path_quiet quiet.1, quiet.2]
        exact (become_eq_self (p := w.path) bystander).symm ▸ .refl

end Engine

end ResourceWatch
