import ResourceWatch.Proofs.Engine.Delivery
import ResourceWatch.Proofs.Engine.Outcome
import ResourceWatch.Proofs.Reconcile.Draining

/-!
# A pipeline that has ended leaves no key behind

A key that a push has made dirty stays so until a reconcile of it begins, and a reconcile that
has begun has a result before its worker holds no key any more. The worker of a pipeline ends
only when no key waits, and nobody else holds one. So what was pushed while the queue was open
was reconciled afterwards.
-/

namespace ResourceWatch

/-- What is not among the later things is among the earlier ones. -/
theorem exists_of_append_eq_append_cons {α : Type} {l more before after : List α} {x : α}
    (split : l ++ more = before ++ x :: after) (fresh : x ∉ more) :
    ∃ rest, l = before ++ x :: rest ∧ after = rest ++ more := by
  obtain ⟨rest, -, rfl⟩ | ⟨rest, rfl, tail⟩ := List.append_eq_append_iff.1 split
  · simp at fresh
  · obtain ⟨rfl, rfl⟩ | ⟨rest, rfl, rfl⟩ := List.cons_eq_append_iff.1 tail
    · simp at fresh
    · exact ⟨rest, rfl, rfl⟩

namespace Path

variable {alone : Prop} {p p' : Path} {t : TaskId} {key : String} {result : ReconcileResult}
  {record : List Occurrence}

section Drained

/-! ### Where workers end -/

/-- No key waits, no push counts, and nobody holds a key. -/
structure Drained (p : Path) : Prop where
  closed : p.queue.closed = true
  empty : p.queue.queue = []
  free : ∀ t key result, p.role t ≠ .holder key result

theorem Drained.step (h : p.Drained) (step : Step alone p p') : p'.Drained := by
  have free (t : TaskId) (key : String) (result : ReconcileResult) :
      p'.role t ≠ .holder key result := fun holder => h.free t key result (step.holder holder)
  obtain same | ⟨key, same⟩ | ⟨same, -⟩ | ⟨t, key, result, holder, -⟩ := step.queue_cases
  · exact ⟨same ▸ h.closed, same ▸ h.empty, free⟩
  · rw [WorkQueue.push_of_closed h.closed] at same
    exact ⟨same ▸ h.closed, same ▸ h.empty, free⟩
  · exact ⟨same ▸ rfl, same ▸ h.empty, free⟩
  · exact absurd holder (h.free t key result)

theorem Drained.not_take (h : p.Drained) : ¬ Take t key p p' := by
  rintro ⟨queue, -, -, -, taken, -⟩
  simp [WorkQueue.take?_eq_none.2 h.empty] at taken

theorem Drained.inflow {gvk : Gvk} {f : Feed} (h : p.Drained) (inflow : Inflow gvk f p p') :
    p'.Drained := by
  obtain ⟨queue, role, -⟩ := inflow.keeps
  exact ⟨queue ▸ h.closed, queue ▸ h.empty, role ▸ h.free⟩

end Drained

section Kept

/-! ### What becomes of a key -/

/-- What is on record stays there, and no step but handing out a key is the begin of a
reconcile. -/
theorem Step.recorded (step : Step alone p p') :
    ∃ more, p'.record = p.record ++ more ∧ ∀ key time, .began key time ∉ more := by
  cases step.carry with
  | stay _ record =>
      obtain same | ⟨key, result, time, same⟩ := record
      · exact ⟨[], by simp [same], by simp⟩
      · exact ⟨_, same, by simp⟩
  | enter _ _ _ _ _ _ record => exact ⟨_, record, by simp⟩
  | leave _ _ record | drop _ _ record => exact ⟨[], by simp [record], by simp⟩

/-- A worker that holds a key holds on to it, or reports it done with its result. -/
theorem Step.holds (step : Step alone p p') (holder : p.role t = .holder key result) :
    p'.role t = .holder key result ∨ ∃ time,
      p'.record = p.record ++ [.reconciled key result time] ∧
        p'.queue = (p.queue.finish key).1 := by
  have aside : ∀ q, Role.holder key result ≠ .pump q := by simp
  cases step with
  | conclude u k r time other =>
      by_cases same : t = u
      · subst same
        cases holder.symm.trans other
        exact .inr ⟨time, rfl, rfl⟩
      · exact .inl ((become_role_of_ne same).trans holder)
  | _ =>
      refine .inl ?_
      simp only [reschedule_role, withChannel_role, withQueue_role, note_role, feedAt_role,
        withStore_role, become_role_eq_iff, abandon_role_eq_iff aside]
      grind

/-- A key that was dirty when so much was on record is so still, or a reconcile of it has begun
since. -/
def Pursues (record : List Occurrence) (key : String) (p : Path) : Prop :=
  ∃ more, p.record = record ++ more ∧
    (key ∈ p.queue.dirty ∨ ∃ time, .began key time ∈ more)

theorem pursues_self (dirty : key ∈ p.queue.dirty) : Pursues p.record key p :=
  ⟨[], by simp, .inl dirty⟩

theorem Pursues.step (h : Pursues record key p) (step : Step alone p p') :
    Pursues record key p' := by
  obtain ⟨more, recorded, kept⟩ := h
  obtain ⟨last, grown, -⟩ := step.recorded
  refine ⟨more ++ last, by rw [grown, recorded, List.append_assoc], ?_⟩
  exact kept.imp step.dirty fun ⟨time, began⟩ => ⟨time, List.mem_append_left _ began⟩

theorem Pursues.take {k : String} (h : Pursues record key p) (working : p.Working)
    (take : Take t k p p') : Pursues record key p' := by
  obtain ⟨more, recorded, kept⟩ := h
  obtain ⟨queue, time, result, asking, taken, -⟩ := take
  refine ⟨more ++ [.began k time], by simp [recorded], ?_⟩
  obtain dirty | ⟨at_, began⟩ := kept
  · by_cases same : key = k
    · subst same
      exact .inr ⟨time, by simp⟩
    · exact .inl ((working.consistent.mem_take?_dirty taken).2 ⟨same, dirty⟩)
  · exact .inr ⟨at_, List.mem_append_left _ began⟩

theorem Pursues.inflow {gvk : Gvk} {f : Feed} (h : Pursues record key p)
    (inflow : Inflow gvk f p p') : Pursues record key p' := by
  obtain ⟨queue, -, same⟩ := inflow.keeps
  simpa only [Pursues, queue, same] using h

/-- The keys in flight are those that workers hold, and every reconcile that has begun has had
a result since, or a worker holds its key. -/
structure Answerable (p : Path) : Prop extends p.Working where
  flying : ∀ key ∈ p.queue.inFlight, ∃ t result, p.role t = .holder key result
  answered : ∀ before key time after, p.record = before ++ .began key time :: after →
    (∃ result time, .reconciled key result time ∈ after) ∨
      ∃ t result, p.role t = .holder key result

theorem Answerable.step (h : p.Answerable) (step : Step alone p p') : p'.Answerable where
  toWorking := h.toWorking.step step
  flying key flight := by
    have flew : key ∈ p.queue.inFlight := by
      obtain same | ⟨k, same⟩ | ⟨same, -⟩ | ⟨t, k, result, -, -, same⟩ := step.queue_cases
      · exact same ▸ flight
      · simpa [same] using flight
      · rw [same] at flight
        exact flight
      · rw [same, WorkQueue.finish_inFlight] at flight
        exact List.mem_of_mem_erase flight
    obtain ⟨t, result, holder⟩ := h.flying key flew
    obtain still | ⟨time, -, done⟩ := step.holds holder
    · exact ⟨t, result, still⟩
    · rw [done, WorkQueue.finish_inFlight, h.consistent.inFlight_nodup.mem_erase_iff] at flight
      exact absurd rfl flight.1
  answered before key time after recorded := by
    obtain ⟨last, grown, fresh⟩ := step.recorded
    obtain ⟨rest, earlier, rfl⟩ :=
      exists_of_append_eq_append_cons (grown.symm.trans recorded) (fresh key time)
    obtain ⟨result, at_, told⟩ | ⟨t, result, holder⟩ := h.answered before key time rest earlier
    · exact .inl ⟨result, at_, List.mem_append_left _ told⟩
    · obtain still | ⟨at_, told, -⟩ := step.holds holder
      · exact .inr ⟨t, result, still⟩
      · obtain rfl : last = [.reconciled key result at_] :=
          List.append_cancel_left (grown.symm.trans told)
        exact .inl ⟨result, at_, by simp⟩

theorem Answerable.take (h : p.Answerable) (take : Take t key p p') : p'.Answerable := by
  refine { toWorking := h.toWorking.take take, flying := ?_, answered := ?_ }
  all_goals obtain ⟨queue, time, result, asking, taken, -⟩ := take
  all_goals
    have keeps {u : TaskId} {k : String} {r : ReconcileResult} (holder : p.role u = .holder k r) :
        (p.become t (.holder key result)).role u = .holder k r := by
      refine become_role_eq_iff.2 (.inr ⟨?_, holder⟩)
      rintro rfl
      cases asking.symm.trans holder
  · intro k flight
    change k ∈ queue.inFlight at flight
    rw [h.consistent.take?_inFlight taken, List.mem_append, List.mem_singleton] at flight
    obtain flight | rfl := flight
    · obtain ⟨u, r, holder⟩ := h.flying k flight
      exact ⟨u, r, keeps holder⟩
    · exact ⟨t, result, become_role_self⟩
  · intro before k at_ after recorded
    obtain ⟨rfl, same, rfl⟩ | ⟨rest, rfl, earlier⟩ := append_singleton_eq_append_cons.1 recorded
    · cases same
      exact .inr ⟨t, result, become_role_self⟩
    · obtain ⟨r, at_', told⟩ | ⟨u, r, holder⟩ := h.answered before k at_ rest earlier
      · exact .inl ⟨r, at_', List.mem_append_left _ told⟩
      · exact .inr ⟨u, r, keeps holder⟩

theorem Answerable.inflow {gvk : Gvk} {f : Feed} (h : p.Answerable) (inflow : Inflow gvk f p p') :
    p'.Answerable := by
  obtain ⟨queue, role, record⟩ := inflow.keeps
  refine { toWorking := h.toWorking.inflow inflow, flying := ?_, answered := ?_ }
  · rw [queue, role]
    exact h.flying
  · rw [record, role]
    exact h.answered

end Kept

end Path

namespace Engine

open ResourceWatch.Path

variable {options : EngineOptions} {plan : WatchPlan} {past : Past Engine Command}
  {w w' : Engine} {x : Happening Command} {t u : TaskId} {key : String} {state : Worker}

/-- What steps, the handing out of a key and what comes in preserve, whatever happens
preserves. -/
theorem path_after {P : Path → Prop} (step : ∀ {p p'}, P p → Step False p p' → P p')
    (take : ∀ {t key p p'}, P p → Take t key p p' → P p')
    (inflow : ∀ {gvk f p p'}, P p → Inflow gvk f p p' → P p')
    (possible : conduct.Possible past w x) (now : P w.path) : P (conduct.after w x).path := by
  have next : conduct.Possible [] w x := by
    cases x <;> exact possible
  refine (path_of_run False (P := fun _ => P) (fun _ _ => rfl) ?_ now (fun alone => alone.elim)
    (fun h _ => step h) (fun h _ _ => h) (fun h _ => take h) (fun h _ _ => inflow h)
    (Conduct.Run.start.next next)).1
  intro past c allowed
  exact ⟨by simpa [conduct] using allowed, fun alone => alone.elim⟩

theorem answerable_of_run (run : conduct.Run (ofPlan options plan) past w) : w.path.Answerable := by
  induction run with
  | start =>
      refine ⟨⟨WorkQueue.consistent_empty, by simp, by simp⟩, by simp [ofPlan], ?_⟩
      intro before key time after record
      simp at record
  | next run possible ih => exact path_after (·.step) (·.take) (·.inflow) possible ih

section Ended

/-! ### When the worker has ended -/

theorem worker_of_holder {result : ReconcileResult} (holder : w.role t = .holder key result) :
    ∃ due, w.tasks[t]? = some (.worker (.working key result due)) := by
  rw [role] at holder
  cases found : w.tasks[t]? with
  | none => simp [found] at holder
  | some task =>
      simp only [found, Option.map_some, Option.getD_some] at holder
      unfold EngineTask.role at holder
      split at holder <;> simp_all

theorem actWorker_leaves (found : w.tasks[t]? = some (.worker state)) :
    (w.act t).1.tasks[t]? = some (.worker (state.act w.shop t w.nextTask).worker) ∧
      (w.act t).1.shop.queue = (state.act w.shop t w.nextTask).workshop.queue := by
  have known := (List.getElem?_eq_some_iff.1 found).1
  simp only [act, found, actWorker]
  split
  all_goals
    refine ⟨?_, rfl⟩
    exact (List.getElem?_append_left (by simpa using known)).trans (List.getElem?_set_self known)

theorem worker_of_run (run : conduct.Run (ofPlan options plan) past w) {s : Worker}
    (gone : w.tasks[u]? = some (.worker .stopped)) (found : w.tasks[t]? = some (.worker s)) :
    s = .stopped := by
  obtain ⟨v, state, pipeline, employs⟩ := employed_of_run run u _ gone
  obtain ⟨v', state', pipeline', employs'⟩ := employed_of_run run t _ found
  obtain rfl := (watchful_of_run run).sole.one .pipeline v v' _ _ pipeline pipeline' rfl rfl
  cases pipeline.symm.trans pipeline'
  cases state with
  | running | stopping =>
      obtain rfl : t = u := employs'.trans employs.symm
      cases gone.symm.trans found
      rfl
  | ended => exact employs'
  | fresh | syncing | failing | draining | opening => exact employs.elim

/-- Where a worker has ended, nobody holds a key. -/
theorem free_of_gone (run : conduct.Run (ofPlan options plan) past w) (gone : w.WorkerGone)
    (t : TaskId) (key : String) (result : ReconcileResult) : w.role t ≠ .holder key result := by
  intro holder
  obtain ⟨u, stopped⟩ := gone
  obtain ⟨due, found⟩ := worker_of_holder holder
  cases worker_of_run run stopped found

/-- A worker that ends finds nothing waiting. -/
theorem empty_of_stops (found : w.tasks[t]? = some (.worker state)) (goes_on : state ≠ .stopped)
    (stops : (conduct.after w (.move t)).tasks[t]? = some (.worker .stopped)) :
    (conduct.after w (.move t)).shop.queue.queue = [] := by
  obtain ⟨schedule, same⟩ := w.after_eq (.move t)
  obtain ⟨becomes, queue⟩ := actWorker_leaves found
  rw [same] at stops ⊢
  have ended : (state.act w.shop t w.nextTask).worker = .stopped := by
    simpa using becomes.symm.trans stops
  obtain ⟨-, -, empty, still⟩ := Worker.ended_of_act ended goes_on
  exact (congrArg WorkQueue.queue (queue.trans still)).trans empty

/-- Where a worker has ended, no key waits and nobody holds one. -/
theorem drained_of_gone (run : conduct.Run (ofPlan options plan) past w)
    (gone : w.WorkerGone) : w.path.Drained := by
  induction run with
  | start => simp [WorkerGone, ofPlan] at gone
  | @next past w x run possible ih =>
      have watchful := watchful_of_run run
      have last := run.next possible
      obtain ⟨u, stopped⟩ := gone
      obtain ⟨old, found, becomes⟩ | begins := (passes_after watchful possible).was stopped
      · cases old with
        | worker state =>
            by_cases was : state = .stopped
            · subst was
              exact path_after (·.step) (fun h take => absurd take h.not_take) (·.inflow) possible
                (ih ⟨u, found⟩)
            · obtain rfl | still := stays_after watchful possible found (by simp) (by simp)
              · exact ⟨(watchful_of_run last).grounded u _ stopped,
                  empty_of_stops found was stopped, free_of_gone last ⟨u, stopped⟩⟩
              · cases still.symm.trans stopped
                exact absurd rfl was
        | _ => exact becomes.resembles.elim
      · cases begins

end Ended

section Pushes

/-! ### What is pushed -/

/-- The key that a task pushes when it goes on, whether that counts or not. -/
def delivers (w : Engine) (t : TaskId) : List String :=
  match w.tasks[t]? with
  | some (.source .running false) =>
    (Source.running.act w.channel t w.fired w.hasSenders).deed.key?.toList
  | some (.delayed key (.sleeping due)) => if due ≤ w.now then [key] else []
  | _ => []

/-- The keys that are pushed when something happens, whether that counts or not. -/
def pushes (w : Engine) : Happening Command → List String
  | .move t => w.delivers t
  | .command (.push key) => [key]
  | _ => []

theorem mem_delivers (delivered : key ∈ w.delivers t) :
    (w.act t).1.shop.queue = (w.shop.queue.push key).1 := by
  unfold delivers at delivered
  split at delivered
  · rename_i found
    rw [Option.mem_toList] at delivered
    simp only [act, found, actSource]
    cases deed : (Source.running.act w.channel t w.fired w.hasSenders).deed with
    | hand k =>
        obtain rfl : k = key := by simpa [deed, Source.Deed.key?] using delivered
        have told (v : Engine) (events : List LogEvent) :
            (v.log events).shop.queue = v.shop.queue := congrArg Path.queue (v.log_path events)
        simp [onDesk, note, Desk.note, told, wakeAll, Desk.wakeAll, setTask]
    | begin | skip | wait | finish => simp [deed, Source.Deed.key?] at delivered
  · rename_i k due found
    split at delivered
    · rename_i late
      obtain rfl := List.mem_singleton.1 delivered
      have late : due ≤ w.shop.toDesk.schedule.now := late
      simp [act, found, DelayedPush.act, late, onDesk, setTask]
    · simp at delivered
  · simp at delivered

theorem dirty_of_pushes (unclosed : w.shop.queue.closed = false) (pushed : key ∈ w.pushes x) :
    key ∈ (conduct.after w x).shop.queue.dirty := by
  have counts : key ∈ (w.shop.queue.push key).1.dirty :=
    WorkQueue.mem_push_dirty.2 (.inr ⟨rfl, unclosed⟩)
  obtain ⟨schedule, same⟩ := w.after_eq x
  rw [same]
  show key ∈ (w.effect x).shop.queue.dirty
  cases x with
  | move t => exact (mem_delivers pushed).symm ▸ counts
  | elapse time => simp [pushes] at pushed
  | command c =>
      cases c with
      | push k =>
          obtain rfl := List.mem_singleton.1 pushed
          simpa [effect, apply, onDesk] using counts
      | _ => simp [pushes] at pushed

end Pushes

def milestones (w : Engine) : History := w.shop.history.filter Occurrence.isMilestone

/-- A key that is dirty at a moment is so still later, or a reconcile of it has begun since. -/
theorem pursues_of_run (run : conduct.Run (ofPlan options plan) past w) :
    ∀ entry ∈ past, ∀ key ∈ (conduct.after entry.1 entry.2).shop.queue.dirty,
      Pursues (conduct.after entry.1 entry.2).milestones key w.path := by
  refine run.since (P := fun entry w =>
    ∀ key ∈ (conduct.after entry.1 entry.2).shop.queue.dirty,
      Pursues (conduct.after entry.1 entry.2).milestones key w.path) ?_ ?_
  · intro past w x run possible key dirty
    exact pursues_self dirty
  · intro past entry w x run possible pursues key dirty
    have working := (answerable_of_run run).toWorking
    exact (path_after (P := fun p => p.Working ∧ Pursues _ key p)
      (fun h step => ⟨h.1.step step, h.2.step step⟩)
      (fun h take => ⟨h.1.take take, h.2.take h.1 take⟩)
      (fun h inflow => ⟨h.1.inflow inflow, h.2.inflow inflow⟩)
      possible ⟨working, pursues key dirty⟩).2

/-- Where the worker has ended, no key waits, is dirty or is in flight. -/
theorem empty_of_gone (run : conduct.Run (ofPlan options plan) past w) (gone : w.WorkerGone) :
    w.shop.queue.queue = [] ∧ w.shop.queue.dirty = [] ∧ w.shop.queue.inFlight = [] := by
  have answerable := answerable_of_run run
  have drained := drained_of_gone run gone
  have free : w.shop.queue.inFlight = [] := by
    refine List.eq_nil_iff_forall_not_mem.2 fun key flight => ?_
    obtain ⟨t, result, holder⟩ := answerable.flying key flight
    exact drained.free t key result holder
  exact ⟨drained.empty, answerable.consistent.dirty_eq_nil drained.empty free, free⟩

/-- Where the worker has ended, a key that was dirty has been reconciled since. -/
theorem reconciled_of_gone (run : conduct.Run (ofPlan options plan) past w)
    (gone : w.WorkerGone) {entry : Engine × Happening Command} (member : entry ∈ past)
    (dirty : key ∈ (conduct.after entry.1 entry.2).shop.queue.dirty) :
    ∃ earlier time later result done,
      w.milestones = (conduct.after entry.1 entry.2).milestones ++ earlier ++
        .began key time :: later ∧ .reconciled key result done ∈ later := by
  obtain ⟨more, recorded, kept⟩ := pursues_of_run run entry member key dirty
  obtain ⟨time, began⟩ := kept.resolve_left (by simp [(empty_of_gone run gone).2.1])
  obtain ⟨earlier, later, rfl⟩ := List.append_of_mem began
  have split : w.milestones = (conduct.after entry.1 entry.2).milestones ++ earlier ++
      .began key time :: later := by
    rw [List.append_assoc]
    exact recorded
  obtain ⟨result, done, told⟩ | ⟨t, result, holder⟩ :=
    (answerable_of_run run).answered _ key time later split
  · exact ⟨earlier, time, later, result, done, split, told⟩
  · exact absurd holder ((drained_of_gone run gone).free t key result)

end Engine

open WorkQueue in
/-- A queue that is closed is drained. After the closing no push changes anything, and no more
keys are handed out than were dirty. When all workers have ended, no key waits, is dirty or is
in flight, and what was pushed before the closing was handed out later. So when a pipeline has
ended that has seen the gate open, what was pushed while its queue was open was reconciled
later. -/
theorem drained_when_closed :
    (∀ {backoff : Backoff} {reconciler : Reconciler} {cache : Cache}
      {past : Past WorkerWorld WorkerWorld.Command} {w : WorkerWorld},
      WorkerWorld.conduct.Run (.start backoff reconciler cache) past w →
      (∀ before w₁ later, past = before ++ (w₁, .command .close) :: later →
        (∀ entry ∈ later, ∀ k ∈ entry.1.pushes entry.2,
          (WorkerWorld.conduct.after entry.1 entry.2).shop.queue = entry.1.shop.queue) ∧
        (later.flatMap fun entry => entry.1.begins entry.2).Subperm w₁.shop.queue.dirty ∧
        (later.flatMap fun entry => entry.1.begins entry.2).length ≤
          w₁.shop.queue.dirty.length) ∧
      ((∃ t : TaskId, w.tasks[t]? = some (.worker .stopped)) →
        (∀ (t : TaskId) state, w.tasks[t]? = some (.worker state) → state = .stopped) →
        w.shop.queue.queue = [] ∧ w.shop.queue.dirty = [] ∧ w.shop.queue.inFlight = [] ∧
        ∀ before k later, WorkerWorld.story past = before ++ .pushed k :: later →
          .closed ∉ before → .handed k ∈ later)) ∧
    (∀ {options : EngineOptions} {plan : WatchPlan} {past : Past Engine Engine.Command}
      {w : Engine} {t : TaskId} {result : PipelineResult},
      Engine.conduct.Run (.ofPlan options plan) past w →
      w.tasks[t]? = some (.pipeline (.ended result)) →
      (∃ entry ∈ past, ∃ state, entry.1.tasks[t]? = some (.pipeline state) ∧
        state.hasOpened = true) →
      w.shop.queue.queue = [] ∧ w.shop.queue.dirty = [] ∧ w.shop.queue.inFlight = [] ∧
      ∀ entry ∈ past, ∀ k ∈ entry.1.pushes entry.2, entry.1.shop.queue.closed = false →
        ∃ earlier time later outcome done,
          w.milestones = (Engine.conduct.after entry.1 entry.2).milestones ++ earlier ++
            .began k time :: later ∧ .reconciled k outcome done ∈ later) := by
  refine ⟨@fun _ _ _ _ w run => ⟨?_, fun gone all => ?_⟩, fun run found seen => ?_⟩
  · rintro before w₁ later rfl
    have handed := WorkerWorld.begins_since_closing run before w₁ later rfl
    refine ⟨fun entry member k => WorkerWorld.still_since_closing run member, ?_, ?_⟩
    · exact (List.sublist_append_left ..).subperm.trans handed.subperm
    · have counted := handed.length_eq
      rw [List.length_append] at counted
      omega
  · have none : ¬ WorkerWorld.Stays w.tasks := by
      rintro ⟨t, state, found, goes_on⟩
      exact goes_on (all t state found)
    obtain ⟨queue, dirty, inFlight⟩ := WorkerWorld.empty_of_gone run gone none
    exact ⟨queue, dirty, inFlight, fun before k later =>
      WorkerWorld.handed_of_gone run gone none⟩
  · obtain ⟨entry, member, state, there, opened⟩ := seen
    have gone := (Engine.joined_of_run run member there opened found).1
    obtain ⟨queue, dirty, inFlight⟩ := Engine.empty_of_gone run gone
    refine ⟨queue, dirty, inFlight, fun entry member k pushed unclosed => ?_⟩
    exact Engine.reconciled_of_gone run gone member (Engine.dirty_of_pushes unclosed pushed)

/-- A key is reconciled for some time and fails once. -/
def failingOnce : WorkerWorld := .start ⟨1, 60⟩ (.scripted [("k", [⟨5, .task⟩])]) {}

/-- The key is pushed again while it is in flight, and then the queue is closed. -/
def closedInFlight : List (Happening WorkerWorld.Command) :=
  [.command .start, .command (.push "k"), .move 0, .command (.push "k"), .command .close,
    .command (.push "k"), .elapse 5, .move 0, .move 0, .move 0, .move 1, .elapse 1005, .move 1]

/-- An object changes while an earlier change of it is being reconciled, and then the token
fires. -/
def cancelledInFlight : List (Happening Engine.Command) :=
  .command .run :: [0, 0, 1, 1, 2, 2, 3].map .move ++
  [.command (.arrive Engine.configMap (.item (.ok .hydrated))),
    .command (.arrive Engine.configMap
      (.item (.ok (.change (.added (Engine.namedObject "a" "1")))))),
    .command (.arrive Engine.configMap
      (.item (.ok (.change (.updated (Engine.namedObject "a" "2"))))))] ++
  [3, 3, 3, 2, 1, 1, 0, 0, 0, 3, 3, 4, 1, 1].map .move ++
  .command .cancel :: [0, 0, 1, 3].map .move ++
  .elapse 5 :: [4, 4].map .move ++ .elapse 10 :: [4, 4, 0].map .move

def Pipeline.hasEnded : Pipeline → Bool
  | .ended _ => true
  | _ => false

/-- Whether a worker has ended; a put-off push is none. -/
def WorkerWorld.Task.ended? : WorkerWorld.Task → Option Bool
  | .worker .stopped => some true
  | .worker _ => some false
  | .delayed .. => none

theorem WorkerWorld.Task.ended?_eq_some_true {task : WorkerWorld.Task} :
    task.ended? = some true ↔ task = .worker .stopped := by
  unfold ended?
  split <;> simp_all

theorem WorkerWorld.eq_close_of_closes {h : Happening WorkerWorld.Command}
    (closed : closes h = [.closed]) : h = .command .close := by
  unfold closes at closed
  split at closed
  · rfl
  · cases closed

theorem drained_when_closedInFlight :
    (∃ before w₁ later w,
      WorkerWorld.conduct.Run failingOnce (before ++ (w₁, .command .close) :: later) w ∧
      w₁.shop.queue.inFlight = ["k"] ∧
      (later.flatMap fun entry => entry.1.pushes entry.2) = ["k", "k"] ∧
      (later.flatMap fun entry => entry.1.begins entry.2).length ≤ 1 ∧
      w.shop.queue.dirty = [] ∧ w.shop.queue.inFlight = []) ∧
    ∃ past w entry k,
      Engine.conduct.Run (.ofPlan Engine.slowOptions Engine.everyConfigMap) past w ∧
      entry ∈ past ∧ k ∈ entry.1.pushes entry.2 ∧ k ∈ entry.1.shop.queue.inFlight ∧
      w.shop.queue.dirty = [] ∧ w.shop.queue.inFlight = [] ∧
      ∃ earlier time later outcome done,
        w.milestones = (Engine.conduct.after entry.1 entry.2).milestones ++ earlier ++
          .began k time :: later ∧ .reconciled k outcome done ∈ later := by
  obtain ⟨workers, pipelines⟩ := drained_when_closed
  constructor
  · have begun : WorkerWorld.conduct.Run failingOnce [] failingOnce := .start
    obtain ⟨before, w₁, h, later, w, run, closes, dirty, flight, pushed, stopped⟩ :
        ∃ before w₁ h later w,
          WorkerWorld.conduct.Run failingOnce (before ++ (w₁, h) :: later) w ∧
          WorkerWorld.closes h = [.closed] ∧ w₁.shop.queue.dirty = ["k"] ∧
          w₁.shop.queue.inFlight = ["k"] ∧
          (later.flatMap fun entry => entry.1.pushes entry.2) = ["k", "k"] ∧
          w.tasks.map WorkerWorld.Task.ended? = [some true, none] :=
      ⟨_, _, _, _, _, (begun.follow closedInFlight (by decide +kernel)).focus
        (show 4 < ((WorkerWorld.conduct.follow [] failingOnce closedInFlight).get _).1.length by
          decide +kernel), by decide +kernel⟩
    obtain rfl := WorkerWorld.eq_close_of_closes closes
    obtain ⟨since, ended⟩ := workers run
    obtain ⟨-, -, few⟩ := since before w₁ later rfl
    have first : w.tasks[0]?.map WorkerWorld.Task.ended? = some (some true) := by
      rw [← List.getElem?_map, stopped]
      rfl
    obtain ⟨task, found, ends⟩ := Option.map_eq_some_iff.1 first
    obtain rfl := WorkerWorld.Task.ended?_eq_some_true.1 ends
    obtain ⟨-, clean, free, -⟩ := ended ⟨0, found⟩ fun t state found => by
      have there := List.mem_map_of_mem (f := WorkerWorld.Task.ended?)
        (List.mem_of_getElem? found)
      rw [stopped] at there
      cases state with
      | stopped => rfl
      | asking | working => simp [WorkerWorld.Task.ended?] at there
    exact ⟨before, w₁, later, w, run, flight, pushed, by simpa [dirty] using few, clean, free⟩
  · have begun : Engine.conduct.Run (.ofPlan Engine.slowOptions Engine.everyConfigMap) []
        (.ofPlan Engine.slowOptions Engine.everyConfigMap) := .start
    obtain ⟨past, w, run, pushed, opened, ended⟩ :
        ∃ past w, Engine.conduct.Run (.ofPlan Engine.slowOptions Engine.everyConfigMap) past w ∧
          past.any (fun entry => !entry.1.shop.queue.closed &&
            (entry.1.pushes entry.2).any (entry.1.shop.queue.inFlight.contains ·)) = true ∧
          past.any (fun entry =>
            entry.1.tasks[0]?.any (·.isPipeline Pipeline.hasOpened)) = true ∧
          w.tasks[0]?.any (·.isPipeline Pipeline.hasEnded) = true :=
      ⟨_, _, begun.follow cancelledInFlight (by decide +kernel), by decide +kernel⟩
    obtain ⟨entry, member, shows⟩ := List.any_eq_true.1 pushed
    obtain ⟨earlier, there, opens⟩ := List.any_eq_true.1 opened
    obtain ⟨state, found, is⟩ := Engine.pipeline_of_any ended
    cases state with
    | ended result =>
        obtain ⟨-, clean, free, reconciled⟩ :=
          pipelines run found ⟨earlier, there, Engine.pipeline_of_any opens⟩
        rw [Bool.and_eq_true, Bool.not_eq_true', List.any_eq_true] at shows
        obtain ⟨unclosed, k, delivered, flight⟩ := shows
        exact ⟨past, w, entry, k, run, member, delivered, List.contains_iff_mem.1 flight, clean,
          free, reconciled entry member k delivered unclosed⟩
    | _ => cases is

end ResourceWatch
