import ResourceWatch.Proofs.Engine.Barrier
import ResourceWatch.Proofs.Engine.Ownership

/-!
# A startup that fails leaves nothing behind

When startup fails it closes the gate, has all of its streams end and lets go of the writer
that it was given. From then on no stream puts a change into the channel. When nothing can
move any more, every stream has ended, also one whose change waited for room. Then nobody
can write to the channel, so a source that was not told to stop has taken what was there
and has ended. Whoever waited for the gate has been told that startup failed.
-/

namespace ResourceWatch

/-- What has become of a task once startup has failed and nothing can move. -/
def EngineTask.IsCleared : EngineTask → Prop
  | .pump q => q.state = .ended
  | .waiter answer => answer = some (.error .syncAborted) ∨ answer = some (.error .cancelled)
  | .pipeline state => ∃ result, state = .ended result
  | _ => True

namespace EngineTask

def failsWith (e : WatchError) : EngineTask → Bool
  | .startup (.ended (.error e')) => e' == e
  | _ => false

theorem failsWith_iff {e : WatchError} {task : EngineTask} :
    task.failsWith e = true ↔ task = .startup (.ended (.error e)) := by
  constructor
  · intro fails
    unfold failsWith at fails
    split at fails
    · rw [eq_of_beq fails]
    · cases fails
  · rintro rfl
    simp [failsWith]

/-- Whether a task waits for the gate, or was told. -/
def isWaiter : EngineTask → Bool
  | .waiter _ => true
  | _ => false

/-- Whether a task is a source for a queue that only records. -/
def isRecorder : EngineTask → Bool
  | .source _ true => true
  | _ => false

end EngineTask

namespace Engine

variable {options : EngineOptions} {plan : WatchPlan} {w w' : Engine} {t u : TaskId}
  {task : EngineTask} {x : Happening Command} {past : Past Engine Command} {e : WatchError}

/-- Startup has failed. -/
def Failed (w : Engine) (t : TaskId) (e : WatchError) : Prop :=
  w.tasks[t]? = some (.startup (.ended (.error e)))

theorem failed_of_any (any : w.tasks[t]?.any (·.failsWith e) = true) : w.Failed t e := by
  obtain ⟨task, found, fails⟩ := (Option.any_eq_true _ _).1 any
  exact found.trans (congrArg some (EngineTask.failsWith_iff.1 fails))

theorem Failed.after (h : w.Failed t e) (watchful : w.Watchful)
    (possible : conduct.Possible past w x) : (conduct.after w x).Failed t e :=
  (passes_after watchful possible).evolves.final h rfl

/-- When startup has failed nothing enters the channel. -/
theorem Failed.entered (h : w.Failed t e) (sole : w.Sole) (supplied : w.Supplied) (x) :
    (conduct.after w x).shop.history.entered = w.shop.history.entered := by
  obtain same | ⟨u, q, -, found, live, kept, -⟩ := w.entered_after x
  · exact same
  · obtain aborted | ended := supplied.owned sole h u q found
    · cases aborted.symm.trans kept
    · exact absurd ended live

/-- From the moment at which startup has failed, nothing enters the channel. -/
theorem entered_of_failed (run : ownedConduct.Run (ofPlan options plan) past w) :
    ∀ entry ∈ past, entry.1.Failed t e →
      w.Failed t e ∧ w.shop.history.entered = entry.1.shop.history.entered := by
  have goes_on {past : Past Engine Command} {w : Engine} {x : Happening Command}
      (run : ownedConduct.Run (ofPlan options plan) past w)
      (possible : ownedConduct.Possible past w x) (failed : w.Failed t e) :
      (conduct.after w x).Failed t e ∧
        (conduct.after w x).shop.history.entered = w.shop.history.entered := by
    have watchful := watchful_of_run (conduct_of_owned run)
    exact ⟨failed.after watchful (possible_of_owned possible),
      failed.entered watchful.sole (supplied_of_run run) x⟩
  refine run.since (P := fun entry w => entry.1.Failed t e →
    w.Failed t e ∧ w.shop.history.entered = entry.1.shop.history.entered) goes_on ?_
  intro past entry w x run possible ih failed
  obtain ⟨still, same⟩ := ih failed
  obtain ⟨failed', same'⟩ := goes_on run possible still
  exact ⟨failed', same'.trans same⟩

section Idle

/-! ### When nothing can move -/

theorem pump_of_failed (h : w.Failed t e) (run : ownedConduct.Run (ofPlan options plan) past w)
    (idle : Cooperative.Idle w) {q : Pump} (found : w.tasks[u]? = some (.pump q)) :
    q.state = .ended := by
  have watchful := watchful_of_run (conduct_of_owned run)
  obtain aborted | ended := (supplied_of_run run).owned watchful.sole h u q found
  · have rests := (forwards_of_run (conduct_of_owned run)).awake.rests u
      (by simp [idle_iff.1 idle]) q (role_eq_pump.2 found)
    refine rests.resolve_right fun ⟨_, kept, _⟩ => ?_
    cases aborted.symm.trans kept
  · exact ended

/-- A source whose channel nobody can write to has ended. -/
theorem source_of_silent (watchful : w.Watchful) (tended : w.Tended) (idle : Cooperative.Idle w)
    (silent : w.hasSenders = false) {state : Source} {recording : Bool}
    (found : w.tasks[u]? = some (.source state recording)) : state = .ended := by
  cases state with
  | ended => rfl
  | fresh => exact (watchful.blocked idle found).elim
  | running =>
      obtain ⟨-, -, closed | ⟨-, senders⟩⟩ := watchful.blocked idle found
      · obtain ⟨_, same⟩ := (tended.shut closed).2 u _ found rfl
        cases same
      · cases silent.symm.trans senders

/-- Whoever waited for the gate was told that startup failed. -/
theorem waiter_of_cancelled (watchful : w.Watchful) (vouched : w.Vouches task)
    (cancelled : w.gate = .cancelled) (idle : Cooperative.Idle w)
    {answer : Option (Except WatchError Unit)} (is : task = .waiter answer)
    (found : w.tasks[u]? = some task) :
    answer = some (.error .syncAborted) ∨ answer = some (.error .cancelled) := by
  subst is
  match answer with
  | none =>
      have untold : w.gate.answer? w.fired = none := watchful.blocked idle found
      cases fired : w.fired <;> simp [SyncState.answer?, cancelled, fired] at untold
  | some (.ok ()) => cases cancelled.symm.trans vouched
  | some (.error e) =>
      obtain rfl | rfl := watchful.grounded u _ found
      · exact .inr rfl
      · exact .inl rfl

/-- A pipeline whose startup has failed has ended. -/
theorem pipeline_of_failed (h : w.Failed t e) (run : conduct.Run (ofPlan options plan) past w)
    (idle : Cooperative.Idle w) {state : Pipeline}
    (found : w.tasks[u]? = some (.pipeline state)) : ∃ result, state = .ended result := by
  have watchful := watchful_of_run run
  have vouched := (vouched_of_run run).tasks
  have cancelled : w.gate = .cancelled := (agrees_of_run run).startup h
  have no_worker (v : TaskId) (worker : Worker) : w.tasks[v]? ≠ some (.worker worker) := by
    intro works
    cases cancelled.symm.trans (vouched v _ works)
  by_cases fired : w.fired = true
  · exact pipeline_of_idle fired run idle (fun v _ _ _ => no_worker v _) found
  · -- a pipeline that has not been told yet is told now
    have blocked := watchful.blocked idle found
    cases stops : state.isOver with
    | true => exact (fired_of_over run found stops).resolve_left fired
    | false =>
        cases state with
        | fresh => exact blocked.elim
        | syncing =>
            have untold : w.gate.answer? w.fired = none := blocked
            simp [SyncState.answer?, cancelled, fired] at untold
        | opening => cases cancelled.symm.trans (vouched u _ found)
        | running source worker r =>
            obtain ⟨-, ⟨task, works, resembles⟩, -⟩ := watchful.grounded u _ found
            cases task with
            | worker => exact absurd works (no_worker worker _)
            | _ => exact resembles.elim
        | failing | draining | stopping | ended => cases stops

/-- When startup has failed and nothing can move, no stream of it is left, and whoever waited
for the gate has been told. -/
theorem cleared_of_failed (h : w.Failed t e)
    (run : ownedConduct.Run (ofPlan options plan) past w) (idle : Cooperative.Idle w)
    (found : w.tasks[u]? = some task) : task.IsCleared := by
  have run' := conduct_of_owned run
  cases task with
  | pump q => exact pump_of_failed h run idle found
  | waiter answer =>
      exact waiter_of_cancelled (watchful_of_run run') ((vouched_of_run run').tasks u _ found)
        ((agrees_of_run run').startup h) idle rfl found
  | pipeline state => exact pipeline_of_failed h run' idle found
  | source | startup | hydration | join | worker | delayed => trivial

/-- Once startup has failed and nothing can move, nobody can write to the channel. -/
theorem silent_of_failed (h : w.Failed t e)
    (run : ownedConduct.Run (ofPlan options plan) past w) (idle : Cooperative.Idle w) :
    w.hasSenders = false := by
  have spare : w.spare = false :=
    ((watchful_of_run (conduct_of_owned run)).grounded t _ h).2
  refine Bool.eq_false_iff.2 fun senders => ?_
  obtain there | ⟨v, q, pump, live⟩ := hasSenders_iff.1 senders
  · cases there.symm.trans spare
  · exact live (pump_of_failed h run idle pump)

end Idle

/-- From the moment at which startup has failed, nothing enters the channel, and the gate
tells of the failure. When nothing can move, every stream has ended, and whoever waited for
the gate was told that startup failed or that the token fired. A source from which nobody
else takes anything has ended too, and has handed over all that entered, unless the token
has fired. -/
theorem cleans_up_of_run (run : ownedConduct.Run (ofPlan options plan) past w)
    (failed : w.tasks[t]? = some (.startup (.ended (.error e)))) :
    (∀ entry ∈ past, entry.1.tasks[t]? = some (.startup (.ended (.error e))) →
      w.shop.history.entered = entry.1.shop.history.entered) ∧
    w.gate = .cancelled ∧
    (Cooperative.Idle w →
      (∀ (u : TaskId) (task : EngineTask), w.tasks[u]? = some task → task.IsCleared) ∧
      ((∀ entry ∈ past, intrudes entry.2 = false) →
        ∀ (u : TaskId) state recording, w.tasks[u]? = some (.source state recording) →
          state = .ended ∧ (w.fired = false →
            w.shop.history.keyed = w.shop.history.entered.filterMap ChangeEvent.key?))) := by
  have run' := conduct_of_owned run
  refine ⟨fun entry member there => (entered_of_failed run entry member there).2,
    (agrees_of_run run').startup failed, fun idle => ⟨fun u task found => ?_,
      fun alone u state recording found => ?_⟩⟩
  · exact cleared_of_failed failed run idle found
  · have tended := tended_of_run run' alone
    obtain rfl := source_of_silent (watchful_of_run run') tended idle
      (silent_of_failed failed run idle) found
    refine ⟨rfl, fun unfired => ?_⟩
    rw [← History.keyed_carried, ← History.entered_carried]
    exact tended.done u recording found unfired

/-- A stream ends before its first list is complete, while another waits for room. -/
def cutOff : List (Happening Command) :=
  [.command .start, .command .source, .command .waitSync] ++ [0, 0, 1, 1, 2, 3, 4].map .move ++
  [.command (.arrive configMap (.item (.ok .hydrated))),
    .command (.arrive configMap (.item (.ok (.change (.added (namedObject "a" "1")))))),
    .command (.arrive configMap (.item (.ok (.change (.added (namedObject "b" "1")))))),
    .command (.closeStream secret)] ++ [3, 3, 3, 4, 0, 3, 1, 1, 2].map .move

/-- The stream that waited for room has ended without its change, and the source has handed
over the one that was in the channel. -/
theorem cleans_up_of_cutOff :
    ∃ past w, ownedConduct.Run (ofPlan slowOptions twoKinds) past w ∧
      w.tasks[0]? = some (.startup (.ended (.error (.streamClosed secret)))) ∧
      (∃ entry ∈ past, entry.1.tasks[0]? =
          some (.startup (.ended (.error (.streamClosed secret)))) ∧
        entry.1.channel.waiting = [3] ∧
        w.shop.history.entered = entry.1.shop.history.entered) ∧
      w.gate = .cancelled ∧ w.fired = false ∧ Cooperative.Idle w ∧
      (∃ q, w.tasks[3]? = some (.pump q) ∧ q.state = .ended) ∧
      (∃ answer, w.tasks[2]? = some (.waiter answer) ∧ answer ≠ some (.ok ())) ∧
      w.tasks[1]? = some (.source .ended true) ∧ w.shop.history.keyed.length = 1 ∧
      w.shop.history.keyed = w.shop.history.entered.filterMap ChangeEvent.key? := by
  have begun : ownedConduct.Run (ofPlan slowOptions twoKinds) [] (ofPlan slowOptions twoKinds) :=
    .start
  obtain ⟨past, w, run, fails, failed, alone, pump, waiter, source, ready, unfired, keyed⟩ :
      ∃ past w, ownedConduct.Run (ofPlan slowOptions twoKinds) past w ∧
        w.tasks[0]?.any (·.failsWith (.streamClosed secret)) = true ∧
        past.any (fun entry => entry.1.tasks[0]?.any (·.failsWith (.streamClosed secret)) &&
          entry.1.channel.waiting == [3]) = true ∧
        past.all (fun entry => !intrudes entry.2) = true ∧
        (w.pump? 3).isSome = true ∧
        w.tasks[2]?.any EngineTask.isWaiter = true ∧
        w.tasks[1]?.any EngineTask.isRecorder = true ∧
        w.shop.schedule.ready = [] ∧ w.fired = false ∧ w.shop.history.keyed.length = 1 :=
    ⟨_, _, begun.follow cutOff (by decide +kernel), by decide +kernel⟩
  obtain ⟨entry, member, before⟩ := List.any_eq_true.1 failed
  simp only [Bool.and_eq_true, beq_iff_eq] at before
  obtain ⟨entered, cancelled, at_rest⟩ := cleans_up_of_run run (failed_of_any fails)
  obtain ⟨cleared, emptied⟩ := at_rest (idle_iff.2 ready)
  obtain ⟨q, streams⟩ := Option.isSome_iff_exists.1 pump
  have streams : w.tasks[3]? = some (.pump q) := role_eq_pump.1 (pump?_eq_some.1 streams)
  obtain ⟨answer, waits⟩ : ∃ answer, w.tasks[2]? = some (.waiter answer) := by
    obtain ⟨task, found, is⟩ := (Option.any_eq_true _ _).1 waiter
    cases task with
    | waiter answer => exact ⟨answer, found⟩
    | _ => cases is
  obtain ⟨state, receives⟩ : ∃ state, w.tasks[1]? = some (.source state true) := by
    obtain ⟨task, found, is⟩ := (Option.any_eq_true _ _).1 source
    cases task with
    | source state recording =>
        cases recording with
        | true => exact ⟨state, found⟩
        | false => cases is
    | _ => cases is
  have undisturbed : ∀ entry ∈ past, intrudes entry.2 = false := fun entry member => by
    simpa using List.all_eq_true.1 alone entry member
  obtain ⟨rfl, all⟩ := emptied undisturbed 1 state true receives
  refine ⟨past, w, run, failed_of_any fails, ⟨entry, member, failed_of_any before.1, before.2,
    entered entry member (failed_of_any before.1)⟩, cancelled, unfired, idle_iff.2 ready,
    ⟨_, streams, cleared 3 _ streams⟩, ⟨_, waits, ?_⟩, receives, keyed, all unfired⟩
  obtain told | told := cleared 2 _ waits
  all_goals
    rw [told]
    simp

end Engine

end ResourceWatch
