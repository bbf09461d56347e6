import ResourceWatch.Proofs.Engine.Startup
import ResourceWatch.Proofs.Engine.Worker

/-!
# Moves of the engine on the path

Whatever task goes on, the path takes a sequence of steps; only a worker that is
handed a key takes one besides, and takes it first. What comes in from outside for
a kind is seen at once by the pump that waits for it.
-/

namespace ResourceWatch.Engine

open ResourceWatch.Path

variable {w : Engine} {t : TaskId} (alone : Prop)

theorem silent_of_hasSenders (h : w.hasSenders = false) : w.path.Silent := by
  simp only [hasSenders, Bool.or_eq_false_iff] at h
  refine ⟨h.1, ?_⟩
  intro t q pump
  have there := List.mem_of_getElem? (role_eq_pump.1 pump)
  have ended := List.any_eq_false.1 h.2 _ there
  simpa [EngineTask.isLivePump] using ended

theorem receive?_eq_none {c : Channel} : c.receive? = none ↔ c.buffer = [] := by
  rw [Channel.receive?]
  cases c.buffer <;> simp

/-- A source that ends lets go of the channel. -/
theorem steps_stop {recording : Bool} {state : Source} (e : LogEvent)
    (found : w.tasks[t]? = some (.source state recording))
    (free : alone → w.fired = true ∨ (w.channel.buffer = [] ∧ w.path.Silent)) :
    let w₁ := { w with channel := w.channel.drop.1 }.setTask t (.source .ended recording)
    Steps alone w.path (((w₁.wakeAll w.channel.drop.2).log [e]).wakeAwaiting t).path := by
  intro w₁
  have same : w₁.path = w.path.withChannel w.channel.drop.1 := by
    have found₁ : { w with channel := w.channel.drop.1 }.tasks[t]? = _ := found
    refine (path_setTask_of_role found₁ (.source .ended recording) ?_).trans rfl
    cases recording <;> rfl
  have stop : Step alone w.path (w₁.wakeAll w.channel.drop.2).path := by
    refine Step.to (.stop (w.shop.schedule.wakeAll w.channel.waiting) free
      (Schedule.keeps_wakeAll _ _) fun u h => Schedule.mem_wakeAll.2 (.inr h)) ?_
    rw [path_wakeAll, same]
    rfl
  refine .head stop ?_
  have wakes := stirs_wakeAll ((w₁.wakeAll w.channel.drop.2).log [e])
    (((w₁.wakeAll w.channel.drop.2).log [e]).tasksWhere (·.awaits t))
  rw [log_path] at wakes
  exact wakes.steps

/-- Pushing a key does to the path what it does to the queue. -/
theorem stirs_push (w : Engine) (key : String) :
    Stirs (w.path.withQueue (w.shop.queue.push key).1) (w.onDesk (·.push key)).path := by
  refine ⟨w.channel.listener, (w.shop.toDesk.push key).schedule, Desk.keeps_push _ _, ?_⟩
  have record : (w.shop.toDesk.push key).history.filter Occurrence.isMilestone =
      w.shop.history.filter Occurrence.isMilestone := by
    obtain same | same := w.shop.toDesk.push_history key <;>
      simp [same, Occurrence.isMilestone]
  simp only [path, onDesk, Desk.push_queue, record]
  rfl

/-- A source that finds nothing waits for the next change. -/
theorem steps_waits {recording : Bool}
    (found : w.tasks[t]? = some (.source .running recording)) :
    let w₁ := { w with channel := { w.channel with listener := some t } }.setTask t
      (.source .running recording)
    Steps alone w.path (w₁.wakeAll []).path := by
  intro w₁
  have found₁ : { w with channel := { w.channel with listener := some t } }.tasks[t]? =
    some (.source .running recording) := found
  have wakes := stirs_wakeAll w₁ []
  rw [path_setTask_of_role found₁ (.source .running recording) rfl] at wakes
  exact .head (.listen (some t)) wakes.steps

/-- A source that takes a change passes its key on, if there is one. -/
theorem steps_takes {recording : Bool} {e : ChangeEvent} {c : Channel} {woken : Option TaskId}
    (found : w.tasks[t]? = some (.source .running recording)) (unfired : ¬ w.fired = true)
    (hands : alone → recording = false) (received : w.channel.receive? = some (e, c, woken)) :
    Steps alone w.path (w.actSource t .running recording).1.path := by
  have found₁ : { w with channel := c }.tasks[t]? = some (.source .running recording) := found
  let w₁ := ({ w with channel := c }.setTask t (.source .running recording)).wakeAll woken.toList
  have same : w₁.path =
      (w.path.withChannel c).reschedule (w.shop.schedule.wakeAll woken.toList) := by
    simp only [w₁, path_wakeAll, path_setTask_of_role found₁ _ rfl]
    rfl
  have keeps := Schedule.keeps_wakeAll w.shop.schedule woken.toList
  have served : ∀ u ∈ woken, u ∈ (w.shop.schedule.wakeAll woken.toList).ready :=
    fun u hu => Schedule.mem_wakeAll.2 (.inr (by simpa using hu))
  cases known : ObjectKey.ofReference? e.reference with
  | none =>
      have skip : Step alone w.path w₁.path :=
        Step.to (.skip e c woken _ received (fun _ => known) keeps served) same.symm
      simpa [actSource, Source.act, Source.after, unfired, received, known, w₁] using
        (Relation.ReflTransGen.single skip : Steps alone _ _)
  | some key =>
      let w₂ := (w₁.log [.queueing key e.owner]).note (.keyed key.encode)
      have same₂ : w₂.path = w₁.path := by simp [w₂, Occurrence.isMilestone]
      by_cases records : recording = true
      · have skip : Step alone w.path { w₂ with
            recorded := w₂.recorded ++ [key.encode] }.path := by
          refine Step.to (.skip e c woken _ received ?_ keeps served) (same₂.trans same).symm
          intro a
          simp [hands a] at records
        simpa [actSource, Source.act, Source.after, unfired, received, known, records, w₂, w₁]
          using (Relation.ReflTransGen.single skip : Steps alone _ _)
      · have hand : Step alone w.path (w₂.path.withQueue (w₂.shop.queue.push key.encode).1) := by
          refine Step.to (.hand e key c woken _ received known keeps served) ?_
          have queue : w₂.shop.queue = w.shop.queue :=
            congrArg Path.queue (same₂.trans same)
          rw [same₂, same, queue]
          rfl
        have pushes : Steps alone _ _ := (stirs_push w₂ key.encode).steps
        simpa [actSource, Source.act, Source.after, unfired, received, known, records, w₂, w₁]
          using Relation.ReflTransGen.head hand pushes

theorem steps_actSource {state : Source} {recording : Bool}
    (found : w.tasks[t]? = some (.source state recording)) (lone : alone → w.path.Lone) :
    Steps alone w.path (w.actSource t state recording).1.path := by
  have hands : alone → recording = false := by
    intro a
    by_contra records
    refine (lone a).served t ((role_eq found).trans ?_)
    rw [Bool.not_eq_false] at records
    rw [records]
    rfl
  cases state with
  | ended => exact .refl
  | fresh =>
      have same : (w.setTask t (.source .running recording)).path = w.path :=
        path_setTask_of_role found _ (by cases recording <;> rfl)
      have wakes := stirs_wakeAll (w.setTask t (.source .running recording)) []
      rw [same] at wakes
      simpa [actSource, Source.act, Source.after] using wakes.steps
  | running =>
      by_cases fired : w.fired = true
      · have steps := steps_stop alone .sourceCancelled found fun _ => .inl fired
        simpa [actSource, Source.act, Source.stop, Source.after, fired] using steps
      · cases received : w.channel.receive? with
        | some got => exact steps_takes alone found fired hands received
        | none =>
            by_cases senders : w.hasSenders = true
            · have waits := steps_waits alone found
              simpa [actSource, Source.act, Source.after, fired, received, senders] using waits
            · have empty : w.channel.buffer = [] := receive?_eq_none.1 received
              have silent := silent_of_hasSenders (by simpa using senders)
              have steps := steps_stop alone .sourceClosed found fun _ => .inr ⟨empty, silent⟩
              simpa [actSource, Source.act, Source.stop, Source.after, fired, received, senders]
                using steps

/-- A push that is put off goes on. -/
theorem steps_delayed {key : String} {push : DelayedPush}
    (found : w.tasks[t]? = some (.delayed key push)) :
    Steps alone w.path (((w.onDesk fun _ => (push.act w.shop.toDesk t key).1).setTask t
      (.delayed key (push.act w.shop.toDesk t key).2)).path) := by
  have same (desk : Desk) (next : DelayedPush) :
      ((w.onDesk fun _ => desk).setTask t (.delayed key next)).path =
        (w.onDesk fun _ => desk).path := by
    have found₁ : (w.onDesk fun _ => desk).tasks[t]? = some (.delayed key push) := found
    exact path_setTask_of_role found₁ _ rfl
  rw [same]
  cases push with
  | pushed => exact .refl
  | fresh millis => exact (stirs_reschedule (Schedule.keeps_setTimer _ _ _)).steps
  | sleeping due =>
      simp only [DelayedPush.act]
      split
      · exact .head (.push key) (stirs_push w key).steps
      · exact .refl

theorem stirs_release (w : Engine) (t : TaskId) : w.path.Stirs (w.release t).path :=
  stirs_wakeAll { w with lock := w.lock.erase t } _

theorem path_acquire (w : Engine) (t : TaskId) : (w.acquire t).1.path = w.path := by
  rw [acquire]
  dsimp only
  split <;> rfl

/-- After no more than waking somebody, a task goes on as what it was. -/
theorem stirs_setTask {w' : Engine} {old : EngineTask} (stirs : w.path.Stirs w'.path)
    (tasks : w'.tasks = w.tasks) (found : w.tasks[t]? = some old) (task : EngineTask)
    (same : task.role = old.role) : w.path.Stirs (w'.setTask t task).path := by
  have found' : w'.tasks[t]? = some old := tasks ▸ found
  rw [path_setTask_of_role found' task same]
  exact stirs

theorem acquire_tasks (w : Engine) (t : TaskId) : (w.acquire t).1.tasks = w.tasks := by
  rw [acquire]
  dsimp only
  split <;> rfl

/-- A call that waits for streams goes on. -/
theorem stirs_actHydration {call : HydrationCall} (found : w.tasks[t]? = some (.hydration call)) :
    w.path.Stirs (w.actHydration t call).1.path := by
  cases call with
  | locking limit token =>
      have path := w.path_acquire t
      have tasks := w.acquire_tasks t
      simp only [actHydration]
      split
      · simp_all [Stirs.refl]
      · rename_i w₁ acquired
        rw [acquired] at path tasks
        have stays : w.path.Stirs w₁.path := by rw [path]; exact .refl _
        split
        · exact stirs_setTask (stays.trans (w₁.stirs_release t)) tasks found _ rfl
        · rename_i r _
          exact stirs_setTask (stays.trans (stirs_setTimer { w₁ with
            kept := some { r with pending := [] } } t limit)) tasks found _ rfl
  | hydrating pending limit due token =>
      simp only [actHydration]
      split
      · exact stirs_setTask (.refl _) rfl found _ rfl
      · exact stirs_setTask ((w.stirs_clearTimers t).trans ((w.clearTimers t).stirs_release t)) rfl
          found _ rfl
  | ended result => exact stirs_setTask (.refl _) rfl found _ rfl
  | dropped => exact stirs_setTask (.refl _) rfl found _ rfl

/-- A call that waits for streams is given up. -/
theorem stirs_dropHydration (w : Engine) (t : TaskId) :
    w.path.Stirs (w.dropHydration t).path := by
  have dropped {call : HydrationCall} (found : w.tasks[t]? = some (.hydration call)) :
      w.path.Stirs (((w.clearTimers t).release t).setTask t (.hydration .dropped)).path :=
    stirs_setTask ((w.stirs_clearTimers t).trans ((w.clearTimers t).stirs_release t)) rfl found _
      rfl
  rw [dropHydration]
  split
  · rename_i found
    exact dropped found
  · rename_i found
    exact dropped found
  · exact .refl _

theorem stirs_fireCall (w : Engine) (t : TaskId) : w.path.Stirs (w.fireCall t).path := by
  rw [fireCall]
  split
  · rename_i call found
    have turned := stirs_setTask (.refl _) rfl found (.hydration call.fire) rfl
    exact turned.trans (stirs_wakeAll _ _)
  · exact .refl _

/-- A call that waits for the streams to end goes on. -/
theorem stirs_actJoin {call : JoinCall} (found : w.tasks[t]? = some (.join call)) :
    w.path.Stirs (w.actJoin t call).1.path := by
  cases call with
  | locking =>
      have path := w.path_acquire t
      have tasks := w.acquire_tasks t
      simp only [actJoin]
      split
      · simp_all [Stirs.refl]
      · rename_i w₁ acquired
        rw [acquired] at path tasks
        have stays : w.path.Stirs w₁.path := by rw [path]; exact .refl _
        split
        · exact stirs_setTask (stays.trans (w₁.stirs_release t)) tasks found _ rfl
        · have released := stays.trans (stirs_release { w₁ with kept := none } t)
          exact stirs_setTask released tasks found _ rfl
  | joining pumps =>
      simp only [actJoin]
      split
      · exact stirs_setTask (.refl _) rfl found _ rfl
      · exact .refl _
  | ended found_one => exact stirs_setTask (.refl _) rfl found _ rfl

theorem role_setTask_ne_pump {task : EngineTask} (other : ∀ q, task ≠ .pump q) (q : Pump) :
    (w.setTask t task).role t ≠ .pump q := by
  rw [ne_eq, role_eq_pump]
  rw [setTask]
  rw [List.getElem?_set]
  split
  · split
    · simpa using other q
    · simp
  · simp_all

/-- A task that is entered as no pump is none, whoever is made ready afterwards. -/
theorem ne_pump_of_tasks {w' : Engine} {task : EngineTask} (other : ∀ q, task ≠ .pump q)
    (tasks : w'.tasks = (w.setTask t task).tasks) (q : Pump) : w'.role t ≠ .pump q := by
  have same : w'.role t = (w.setTask t task).role t := by unfold role; rw [tasks]
  rw [same]
  exact role_setTask_ne_pump other q

theorem endStartup_tasks (w : Engine) (t : TaskId) (result : Except WatchError Registration) :
    (w.endStartup t result).tasks = (w.setTask t (.startup (.ended result))).tasks := by
  simp only [endStartup]
  cases result with
  | error e => rfl
  | ok r =>
      dsimp only
      split <;> rfl

theorem actSource_tasks (w : Engine) (t : TaskId) (state : Source) (recording : Bool) :
    (w.actSource t state recording).1.tasks = w.tasks ∨
      ∃ next, (w.actSource t state recording).1.tasks =
        (w.setTask t (.source next recording)).tasks := by
  by_cases ended : state = .ended
  · subst ended
    exact .inl rfl
  · refine .inr ⟨Source.after (state.act w.channel t w.fired w.hasSenders).deed, ?_⟩
    cases state with
    | ended => exact absurd rfl ended
    | fresh =>
        simp only [actSource]
        split <;> [split; skip; skip] <;> simp [onDesk, setTask, wakeAwaiting, note]
    | running =>
        simp only [actSource]
        split <;> [split; skip; skip] <;> simp [onDesk, setTask, wakeAwaiting, note]

/-- A task that is no pump is none after it has gone on. -/
theorem role_act_ne_pump (other : ∀ q, w.role t ≠ .pump q) (q : Pump) :
    (w.act t).1.role t ≠ .pump q := by
  rw [act]
  split
  · rename_i found
    exact absurd (role_eq_pump.2 found) (other _)
  · rename_i state recording _
    obtain same | ⟨next, same⟩ := w.actSource_tasks t state recording
    · unfold role; rw [same]; exact other q
    · exact ne_pump_of_tasks (by simp) same q
  · rename_i state _
    cases state with
    | fresh =>
        simp only [actStartup]
        split
        · exact ne_pump_of_tasks (by simp) (endStartup_tasks _ _ _) q
        · exact role_setTask_ne_pump (by simp) q
    | hydrating r pending due =>
        simp only [actStartup]
        split
        · exact role_setTask_ne_pump (by simp) q
        · exact ne_pump_of_tasks (by simp) (endStartup_tasks _ _ _) q
        · exact ne_pump_of_tasks (by simp) (endStartup_tasks _ _ _) q
    | ended result => exact role_setTask_ne_pump (by simp) q
  · exact role_setTask_ne_pump (by simp) q
  · exact other q
  · rename_i call found
    obtain ⟨_, _, -, same⟩ := stirs_actHydration found
    exact fun h => other q ((congrArg (Path.role · t) same).symm.trans h)
  · rename_i call found
    obtain ⟨_, _, -, same⟩ := stirs_actJoin found
    exact fun h => other q ((congrArg (Path.role · t) same).symm.trans h)
  · rename_i state _
    cases state <;> simp only [actPipeline] <;> (try split) <;>
      first | exact role_setTask_ne_pump (by simp) q | exact other q
  · rename_i state found
    obtain ⟨_, _, -, same⟩ := stirs_actWorker (List.getElem?_eq_some_iff.1 found).1 state
    have role : (w.actWorker t state).1.role t = _ := congrArg (Path.role · t) same
    rw [role]
    generalize (state.act w.shop t w.nextTask).worker = next
    cases next <;> simp [EngineTask.role]
  · exact role_setTask_ne_pump (by simp) q
  · exact other q

/-- A task goes on; a pump rests only when it may. -/
theorem advance_act (ready : t ∈ w.shop.schedule.ready) (lone : alone → w.path.Lone) :
    Advance alone t (w.handed t) w.path (w.act t).1.path ∧
      ((w.act t).2 = .rests → (w.act t).1.path.MayRest t) := by
  by_cases pump : ∃ q, w.role t = .pump q
  · obtain ⟨q, pump⟩ := pump
    have found := role_eq_pump.1 pump
    simp only [act, handed, found]
    exact steps_actPump alone pump ready
  · refine ⟨?_, fun _ q h => absurd h (role_act_ne_pump (not_exists.1 pump) q)⟩
    cases found : w.tasks[t]? with
    | none =>
        simp only [act, handed, found]
        exact .refl
    | some task =>
        cases task with
        | pump q => exact absurd ⟨q, role_eq_pump.2 found⟩ pump
        | source state recording =>
            simp only [act, handed, found]
            exact steps_actSource alone found lone
        | startup state =>
            simp only [act, handed, found]
            exact steps_actStartup alone found lone
        | waiter answer =>
            cases answer with
            | none =>
                simp only [act, handed, found]
                have answered := stirs_setTask (.refl _) rfl found
                  (.waiter (w.gate.answer? w.fired)) rfl
                exact answered.steps
            | some answer =>
                simp only [act, handed, found]
                exact .refl
        | hydration call =>
            simp only [act, handed, found]
            exact (stirs_actHydration found).steps
        | join call =>
            simp only [act, handed, found]
            exact (stirs_actJoin found).steps
        | pipeline state =>
            simp only [act, handed, found]
            exact steps_actPipeline alone found lone
        | worker state =>
            simp only [act, found]
            exact advance_actWorker alone found
        | delayed key push =>
            simp only [act, handed, found]
            exact steps_delayed alone found

theorem advance_run (ready : t ∈ w.shop.schedule.ready) (lone : alone → w.path.Lone) :
    Advance alone t (w.handed t) w.path (Cooperative.run w t).path := by
  obtain ⟨advance, may⟩ := advance_act alone ready lone
  rw [Cooperative.run]
  simp only [Cooperative.act, Cooperative.reschedule, Cooperative.schedule]
  split
  · rename_i w' acted
    rw [acted] at advance
    exact advance
  · rename_i w' acted
    rw [acted] at advance may
    exact advance.steps (.single (.rest t (may rfl)))

theorem stirs_elapse (w : Engine) (time : Nat) :
    w.path.Stirs (Cooperative.reschedule w ((Cooperative.schedule w).elapse time)).path :=
  stirs_reschedule (Schedule.keeps_elapse _ _)

end ResourceWatch.Engine
