import ResourceWatch.Proofs.Engine.Alone
import ResourceWatch.Proofs.Engine.Pump

/-!
# Startup and the pipeline on the path

Opening streams adds one pump after the other; if it fails, the pumps that were
added are to end. What startup and the pipeline do besides is to settle the gate,
to let the token fire, and to start each other.
-/

namespace ResourceWatch

/-- Opening a stream fails and changes no feed and no store, or it marks the feed
as taken and attaches the store. -/
theorem Provider.open?_cases (p : Provider) (cache : Cache) (gvk : Gvk) :
    (∃ p' e, p.open? cache gvk = (p', .error e) ∧ p'.feed = p.feed ∧ p'.cached = p.cached) ∨
    (∃ p' cache', p.open? cache gvk = (p', .ok cache') ∧ (p.feed gvk).taken = false ∧
      p'.feed = Function.update p.feed gvk { p.feed gvk with taken := true } ∧
      p'.cached = p.cached ∧
      if p.cached then
        cache.store? gvk = none ∧
          cache'.store? = Function.update cache.store? gvk (some {})
      else cache' = cache) := by
  let asked : Provider := { p with opened := p.opened ++ [gvk] }
  cases failing : p.failing.lookup gvk with
  | some e => exact .inl ⟨asked, e, by simp only [open?, failing, asked], rfl, rfl⟩
  | none =>
    cases attached : if p.cached then cache.attach gvk else .ok cache with
    | error e =>
        refine .inl ⟨asked, e, ?_, rfl, rfl⟩
        simp only [open?, failing, attached, asked]
    | ok cache' =>
        by_cases taken : (p.feed gvk).taken = true
        · refine .inl ⟨asked, .streamRegistration gvk .alreadyOpened, ?_, rfl, rfl⟩
          have same : asked.feed gvk = p.feed gvk := rfl
          simp only [open?, failing, attached]
          exact if_pos taken
        · refine .inr ⟨asked.put { p.feed gvk with taken := true }, cache', ?_,
            by simpa using taken, ?_, asked.put_cached _, ?_⟩
          · simp only [open?, failing, attached]
            exact if_neg taken
          · rw [feed_put]
            simp only [feed_gvk]
            rfl
          · split at attached
            · rename_i cached
              obtain ⟨fresh, rfl⟩ := Cache.attach_eq_ok.1 attached
              rw [if_pos cached]
              exact ⟨fresh, cache.store?_attached gvk fresh⟩
            · rename_i uncached
              rw [if_neg uncached]
              exact (Except.ok.inj attached).symm

theorem Provider.failing_of_open? {p p' : Provider} {cache : Cache} {gvk : Gvk}
    {answer : Except WatchError Cache} (asked : p.open? cache gvk = (p', answer)) :
    p'.failing = p.failing := by
  have same : (p.open? cache gvk).1.failing = p.failing := by
    rw [open?]
    dsimp only
    split
    · rfl
    · split
      · rfl
      · split
        · rfl
        · exact put_failing _ _
  rw [← same, asked]

namespace Engine

open ResourceWatch.Path

variable {w : Engine} {t : TaskId} (alone : Prop)

/-- Steps that leave the roles of the tasks there are, after which pumps may be to
end; none is if everything went well. -/
def Opens (alone : Prop) (w w' : Engine) (well : Prop) : Prop :=
  ∃ p pumps schedule, Steps alone w.path p ∧ (∀ u < w.tasks.length, p.role u = w.role u) ∧
    p.schedule.Keeps schedule ∧
    (∀ t ∈ pumps, ∀ q, p.role t = .pump q → q.state ≠ .ended → t ∈ schedule.ready) ∧
    w'.path = (p.abandon pumps).reschedule schedule ∧ w.tasks.length ≤ w'.tasks.length ∧
    (well → pumps = [])

theorem opens_drop {w' : Engine} (same : w'.path = w.path)
    (length : w'.tasks.length = w.tasks.length) (r : Registration) :
    Opens alone w (w'.drop r) False := by
  obtain ⟨schedule, keeps, woken, marked, same_length⟩ := w'.path_abort r.pumps
  refine ⟨w'.path, r.pumps, schedule, by rw [same], fun u _ => by rw [same]; rfl, keeps, woken,
    marked, ?_, False.elim⟩
  exact Nat.le_of_eq (same_length.trans length).symm

/-- Opening streams adds pumps; if it fails, pumps are to end. -/
theorem opens_openStreams (w : Engine) (r : Registration) (watches : List PlannedWatch)
    (spare : alone → w.spare = true) :
    Opens alone w (w.openStreams r watches).1 ((w.openStreams r watches).2.isOk) := by
  induction watches generalizing w r with
  | nil =>
      refine ⟨w.path, [], w.shop.schedule, .refl, fun _ _ => rfl, .refl _, by simp, ?_, ?_, ?_⟩
      · simp [openStreams, reschedule_eq_self]
      · simp [openStreams]
      · simp
  | cons watch rest ih =>
      simp only [openStreams]
      split
      · simpa [Except.isOk, Except.toBool] using opens_drop alone (w := w) rfl rfl r
      · rename_i unfired
        obtain ⟨p', e, opened, feed, cached⟩ | ⟨p', cache, opened, untaken, feed, cached, store⟩ :=
          w.provider.open?_cases w.shop.cache watch.kind.gvk
        · rw [opened]
          have same : { w with provider := p' }.path = w.path := by
            simp only [path, feed, cached]
            rfl
          simpa [Except.isOk, Except.toBool] using opens_drop alone same rfl r
        · rw [opened]
          let gvk := watch.kind.gvk
          let w₁ := { w with provider := p', shop := { w.shop with cache } }
          have base : w₁.path = (w.path.withStore cache.store?).feedAt gvk
              { w.provider.feed gvk with taken := true } := by
            simp only [w₁, path, feed, cached, gvk]
            rfl
          have stream : Step alone w.path (w₁.spawn (.pump { gvk })).path := by
            refine Step.to (.stream w.nextTask gvk cache.store?
              (w.shop.schedule.wakeAll [w.nextTask]) (role_of_le (Nat.le_refl _))
              (by simpa using unfired) spare untaken ?_
              (Schedule.keeps_wakeAll _ _) (Schedule.mem_wakeAll.2 (.inr (by simp)))) ?_
            · show if w.provider.cached = true then
                  w.shop.cache.store? gvk = none ∧
                    cache.store? = Function.update w.shop.cache.store? gvk (some {})
                else cache.store? = w.shop.cache.store?
              by_cases wanted : w.provider.cached = true
              · simpa only [if_pos wanted] using store
              · simp only [if_neg wanted] at store ⊢
                rw [store]
            · rw [path_spawn, base]
              rfl
          have length : (w₁.spawn (.pump { gvk })).tasks.length = w.tasks.length + 1 := by
            rw [spawn_length]
          obtain ⟨p, pumps, schedule, steps, roles, keeps, woken, marked, longer, well⟩ :=
            ih (w₁.spawn (.pump { gvk }))
              { kinds := r.kinds ++ [gvk], pumps := r.pumps ++ [w.nextTask]
                pending := r.pending ++ [(gvk, w.nextTask)] } spare
          refine ⟨p, pumps, schedule, .head stream steps, ?_, keeps, woken, marked, ?_, well⟩
          · intro u h
            rw [roles u (by omega), spawn_role_of_lt (w := w₁) h]
            rfl
          · exact Nat.le_trans (by omega) longer

theorem opens_register (spare : alone → w.spare = true) :
    Opens alone w w.register.1 (w.register.2.isOk) := by
  have opens := w.opens_openStreams alone {} w.plan.watches spare
  rw [register]
  split <;> simp_all only
  exact opens

theorem stirs_endStartup (known : t < w.tasks.length) (result : Except WatchError Registration) :
    (w.path.become t .bystander).Stirs (w.endStartup t result).path := by
  have ends (w' : Engine) (same : w'.path = w.path) (tasks : w'.tasks = w.tasks) :
      (w.path.become t .bystander).Stirs
        ((w'.setTask t (.startup (.ended result))).wakeAwaiting t).path := by
    have marked := path_setTask (w := w') (tasks ▸ known) (.startup (.ended result))
    rw [same] at marked
    exact marked ▸ stirs_wakeAll _ _
  simp only [endStartup]
  cases result with
  | error e => exact ends w rfl rfl
  | ok r =>
      dsimp only
      split
      · exact ends { w with kept := some r } rfl rfl
      · exact ends w rfl rfl

theorem steps_actStartup {state : Startup} (found : w.tasks[t]? = some (.startup state))
    (lone : alone → w.path.Lone) : Steps alone w.path (w.actStartup t state).1.path := by
  have known := (List.getElem?_eq_some_iff.1 found).1
  cases state with
  | fresh =>
      have starter : w.path.role t = .starter false := role_eq found
      obtain ⟨p, pumps, schedule, steps, roles, keeps, woken, marked, longer, well⟩ :=
        opens_register alone (w := w) fun a => (lone a).spare t starter
      have starter' : p.role t = .starter false := (roles t known).trans starter
      simp only [actStartup]
      split
      · rename_i w₁ e registered
        rw [registered] at marked longer
        have known₁ : t < w₁.tasks.length := Nat.lt_of_lt_of_le known longer
        have founder : Step alone p
            (Path.become { { w₁.path with gate := w₁.gate.settle .cancelled } with spare := false }
              t .bystander) := by
          refine Step.to (.founder t false false pumps schedule starter' (by simp) keeps woken) ?_
          have gate : w₁.gate = p.gate := congrArg Path.gate marked
          rw [marked, gate]
          rfl
        have settled := (w₁.stirs_settleGate .cancelled).map
          (fun p => { p with spare := false }) (fun _ _ => rfl) rfl
        have dropped := settled.trans (w₁.settleGate .cancelled).stirs_dropSpare
        have ended := (dropped.become t .bystander).trans
          (stirs_endStartup (by simpa [dropSpare, settleGate] using known₁) (.error e))
        exact steps.trans (.head founder ended.steps)
      · rename_i w₁ r registered
        rw [registered] at marked longer well
        obtain rfl := well rfl
        have known₁ : t < w₁.dropSpare.tasks.length := by
          simpa [dropSpare] using Nat.lt_of_lt_of_le known longer
        have opened : Steps alone p w₁.path := by
          rw [marked, abandon_nil]
          exact .single (.wake schedule keeps)
        have starter₁ : w₁.path.role t = .starter false := by
          rw [marked, abandon_nil]
          exact starter'
        have waits := ((stirs_dropSpare w₁).trans (stirs_setTimer _ t w₁.limit)).become t
          (.starter true)
        refine steps.trans (opened.trans (.head (.await t starter₁) ?_))
        rw [path_setTask (by exact known₁)]
        exact waits.steps
  | hydrating r pending due =>
      have starter : w.path.role t = .starter true := role_eq found
      simp only [actStartup]
      split
      · rename_i rest _
        rw [path_setTask_of_role found (.startup (.hydrating r rest due)) rfl]
      · have settled := (stirs_clearTimers w t).map
          (fun p => { p with gate := w.gate.settle .synced }) (fun _ _ => rfl) rfl
        have opens :=
          (settled.trans ((w.clearTimers t).stirs_settleGate .synced)).become t .bystander
        have ended := stirs_endStartup (t := t) (w := { (w.clearTimers t).settleGate .synced with
          synced := true }) known (.ok r)
        exact .head (.open t true starter) (opens.trans ended).steps
      · rename_i e _
        obtain ⟨schedule, keeps, woken, marked, length⟩ := (w.clearTimers t).path_abort r.pumps
        have founder : Step alone w.path
            (Path.become { ((w.clearTimers t).drop r).path with gate := w.gate.settle .cancelled }
              t .bystander) := by
          refine Step.to (.founder t true w.spare r.pumps schedule starter id keeps woken) ?_
          have same : ((w.clearTimers t).drop r).path =
            ((w.clearTimers t).path.abandon r.pumps).reschedule schedule := marked
          rw [same]
          rfl
        have gate : ((w.clearTimers t).drop r).gate = w.gate := congrArg Path.gate marked
        have settled := ((w.clearTimers t).drop r).stirs_settleGate .cancelled
        rw [gate] at settled
        have ended := (settled.become t .bystander).trans
          (stirs_endStartup (by exact length ▸ known) (.error e))
        exact .head founder ended.steps
  | ended result =>
      simp only [actStartup]
      rw [path_setTask_of_role found (.startup (.ended result)) rfl]

/-- A pipeline that begins starts its source and leaves the start of the streams to another
task. -/
theorem steps_delegates (found : w.tasks[t]? = some (.pipeline .fresh)) :
    Steps alone w.path (w.actPipeline t .fresh).1.path := by
  have known := (List.getElem?_eq_some_iff.1 found).1
  have starter : w.path.role t = .starter false := role_eq found
  let w₁ := w.spawn (.source .fresh false)
  have first : w.path.Stirs w₁.path := w.stirs_spawn rfl
  have starter₁ : w₁.path.role t = .starter false := (spawn_role_of_lt known).trans starter
  have delegate : Step alone w₁.path
      ((w₁.path.become w₁.nextTask (.starter false)).become t .bystander) :=
    .delegate t w₁.nextTask starter₁ (role_of_le (Nat.le_refl _))
  have last : ((w₁.path.become w₁.nextTask (.starter false)).become t .bystander).Stirs
      (w.actPipeline t .fresh).1.path := by
    have known₂ : t < (w₁.spawn (.startup .fresh)).tasks.length :=
      Nat.lt_of_lt_of_le known (by simp [w₁]; omega)
    have spawned := path_spawn w₁ (.startup .fresh)
    have marked := path_setTask known₂ (.pipeline (.syncing w.nextTask (w.nextTask + 1)))
    rw [spawned] at marked
    exact marked ▸ (stirs_reschedule (Schedule.keeps_wakeAll _ _)).become t .bystander
  exact first.steps.trans (.head delegate last.steps)

/-- A pipeline that failed lets go of the streams that were opened for it. -/
theorem steps_retires {source startup : TaskId}
    (found : w.tasks[t]? = some (.pipeline (.failing source startup)))
    (lone : alone → w.path.Lone) (r : Registration) (next : Pipeline)
    (aside : (EngineTask.pipeline next).role = .bystander) :
    Steps alone w.path ((w.drop r).setTask t (.pipeline next)).path := by
  have failing : w.path.role t = .failing := role_eq found
  obtain ⟨schedule, keeps, woken, marked, length⟩ := w.path_abort r.pumps
  have same : (w.drop r).path = (w.path.abandon r.pumps).reschedule schedule := marked
  have forsake : Step alone w.path (w.drop r).path :=
    Step.to (.forsake r.pumps schedule (fun a => (lone a).failing t failing) keeps woken) same.symm
  refine .head forsake (.single ?_)
  rw [path_setTask (length ▸ (List.getElem?_eq_some_iff.1 found).1), aside]
  refine .retire t ?_
  rw [same]
  exact (abandon_role_eq_iff (by simp)).2 failing

theorem steps_actPipeline {state : Pipeline} (found : w.tasks[t]? = some (.pipeline state))
    (lone : alone → w.path.Lone) : Steps alone w.path (w.actPipeline t state).1.path := by
  have known := (List.getElem?_eq_some_iff.1 found).1
  cases state with
  | fresh => exact steps_delegates alone found
  | syncing source startup =>
      simp only [actPipeline]
      split
      · exact .refl
      · rw [path_setTask_of_role found (.pipeline (.opening source startup)) rfl]
      · refine (steps_fire w).trans (.single ?_)
        rw [path_setTask (by simpa using known)]
        have found₁ : w.fire.tasks[t]? = some (.pipeline (.syncing source startup)) := by
          simpa using found
        exact .fail t (role_eq found₁) w.fire_fired
  | failing source startup =>
      simp only [actPipeline]
      split
      · exact .refl
      · rename_i result _
        cases result with
        | error e =>
            refine .single ?_
            rw [path_setTask known]
            exact .retire t (role_eq found)
        | ok r => exact steps_retires alone found lone r _ rfl
  | draining source result =>
      simp only [actPipeline]
      split
      · rw [path_setTask_of_role found (.pipeline (.ended result)) rfl]
      · exact .refl
  | opening source startup =>
      simp only [actPipeline]
      split
      · exact .refl
      · rename_i e _
        rw [path_setTask_of_role found (.pipeline (.ended (.error (.watch e)))) rfl]
      · rename_i r _
        have found₁ : (w.spawn (.worker .asking)).tasks[t]? =
            some (.pipeline (.opening source startup)) := spawn_found found
        rw [path_setTask_of_role found₁ (.pipeline (.running source w.nextTask r)) rfl]
        exact (w.stirs_spawn rfl).steps
  | running source worker r =>
      simp only [actPipeline]
      split
      · exact .refl
      · rename_i result _
        have found₁ : (w.fire.onDesk Desk.close).tasks[t]? =
          some (.pipeline (.running source worker r)) := by simpa [onDesk] using found
        rw [path_setTask_of_role found₁ (.pipeline (.stopping source worker r result)) rfl]
        have close : Step alone w.fire.path (w.fire.path.withQueue w.fire.path.queue.close) :=
          .close fun _ => w.fire_fired
        have wakes : Stirs (w.fire.path.withQueue w.fire.path.queue.close)
            (w.fire.onDesk Desk.close).path := stirs_reschedule (Desk.keeps_close _)
        exact (steps_fire w).trans (.head close wakes.steps)
  | stopping source worker r result =>
      simp only [actPipeline]
      split
      · rw [path_setTask_of_role found (.pipeline (.ended result)) rfl]
      · exact .refl
  | ended result =>
      simp only [actPipeline]
      rw [path_setTask_of_role found (.pipeline (.ended result)) rfl]

end Engine

end ResourceWatch
