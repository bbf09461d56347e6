import ResourceWatch.Proofs.Engine.Carriage
import ResourceWatch.Proofs.Engine.Forwarding
import ResourceWatch.Proofs.Engine.Locking

/-!
# When the token has fired nothing passes any more

A pump looks at the token before it does anything else, also when it goes on because room
was given to it, and so does the source, also when changes are left in the channel. So from
the moment at which the token fires nothing enters the channel and no key is handed over.
Everybody on the way is ready by then and ends as soon as he goes on. Whoever waits for the
streams of a registration to end is therefore kept waiting by nobody, also if he first has
to wait until others use the registration no more.
-/

namespace ResourceWatch

/-- Whether a task passes changes on, or waits until those that do have ended. -/
def EngineTask.isUnderway : EngineTask → Bool
  | .pump _ | .source .. | .join _ => true
  | _ => false

/-- Whoever goes on is still on the way. -/
theorem EngineTask.Resembles.isUnderway {task new : EngineTask} (h : task.Resembles new)
    (is : task.isUnderway = true) : new.isUnderway = true := by
  cases task <;> cases new <;> simp_all [EngineTask.Resembles, EngineTask.isUnderway]

namespace Engine

variable {options : EngineOptions} {plan : WatchPlan} {w w' : Engine} {t u : TaskId}
  {task : EngineTask} {x : Happening Command} {past : Past Engine Command}

/-- From the moment at which the token has fired, nothing enters the channel and no key is
handed over. -/
theorem carried_of_fired (run : conduct.Run (ofPlan options plan) past w) :
    ∀ entry ∈ past, entry.1.fired = true → w.fired = true ∧
      w.shop.history.entered = entry.1.shop.history.entered ∧
      w.shop.history.keyed = entry.1.shop.history.keyed := by
  have barred {past : Past Engine Command} {w : Engine} {x : Happening Command}
      (run : conduct.Run (ofPlan options plan) past w) (possible : conduct.Possible past w x)
      (fired : w.fired = true) : (conduct.after w x).fired = true ∧
        (conduct.after w x).shop.history.entered = w.shop.history.entered ∧
        (conduct.after w x).shop.history.keyed = w.shop.history.keyed := by
    refine ⟨(passes_after (watchful_of_run run) possible).lasts.fired fired, ?_, ?_⟩
    · refine (w.entered_after x).resolve_right ?_
      rintro ⟨_, _, -, -, -, -, unfired⟩
      cases unfired.symm.trans fired
    · refine (w.keyed_after x).resolve_right ?_
      rintro ⟨_, _, -, -, unfired⟩
      cases unfired.symm.trans fired
  refine run.since (P := fun entry w => entry.1.fired = true → w.fired = true ∧
    w.shop.history.entered = entry.1.shop.history.entered ∧
    w.shop.history.keyed = entry.1.shop.history.keyed) barred ?_
  intro past entry w x run possible ih fired
  obtain ⟨still, entered, keyed⟩ := ih fired
  obtain ⟨fired', entered', keyed'⟩ := barred run possible still
  exact ⟨fired', entered'.trans entered, keyed'.trans keyed⟩

section Turns

/-! ### The next step of everybody on the way -/

variable (fired : w.fired = true)
include fired

theorem pump_ends {q : Pump} (found : w.tasks[t]? = some (.pump q)) (live : q.state ≠ .ended) :
    (w.act t).1.tasks[t]? = some (.pump { q with state := .ended }) := by
  have ends : (w.act t).1 = w.endPump t q := by
    simp only [act, found, actPump]
    split
    · exact absurd ‹_› live
    · simp [fired]
    · simp [fired]
  rw [ends, endPump_tasks]
  exact setTask_self found _

theorem source_ends {recording : Bool} (found : w.tasks[t]? = some (.source .running recording)) :
    (w.act t).1.tasks[t]? = some (.source .ended recording) := by
  have stops := actSource_after (by simp) found
  simp only [Source.act, fired, if_true] at stops
  simp only [act, found]
  exact stops

theorem barred_pump (run : conduct.Run (ofPlan options plan) past w) {q : Pump}
    (found : w.tasks[t]? = some (.pump q)) (live : q.state ≠ .ended) :
    t ∈ w.shop.schedule.ready ∧
      (conduct.after w (.move t)).tasks[t]? = some (.pump { q with state := .ended }) := by
  refine ⟨?_, ?_⟩
  · by_contra rests
    obtain ended | ⟨unfired, -⟩ :=
      (forwards_of_run run).awake.rests t rests q (role_eq_pump.2 found)
    · exact live ended
    · cases unfired.symm.trans fired
  · obtain ⟨s, same⟩ := w.after_eq (.move t)
    rw [same]
    exact pump_ends fired found live

/-- A source that has not ended goes on; it ends, unless it is only about to begin. -/
theorem barred_source (watchful : w.Watchful) {state : Source} {recording : Bool}
    (found : w.tasks[t]? = some (.source state recording)) (runs : state ≠ .ended) :
    t ∈ w.shop.schedule.ready ∧
      (conduct.after w (.move t)).tasks[t]? =
        some (.source (if state = .fresh then .running else .ended) recording) := by
  obtain ⟨s, same⟩ := w.after_eq (.move t)
  rw [same]
  cases state with
  | ended => exact absurd rfl runs
  | fresh =>
      refine ⟨(watchful.attentive t _ found).resolve_right id, ?_⟩
      have begins := actSource_after (by simp) found
      show (w.act t).1.tasks[t]? = _
      simp only [act, found]
      exact begins
  | running =>
      refine ⟨(watchful.attentive t _ found).resolve_right fun blocked => ?_,
        source_ends fired found⟩
      cases blocked.1.symm.trans fired

/-- When nothing can move, everybody on the way has ended. -/
theorem underway_of_idle (run : conduct.Run (ofPlan options plan) past w)
    (idle : Cooperative.Idle w) (found : w.tasks[t]? = some task)
    (underway : task.isUnderway = true) : task.isEnded = true := by
  have watchful := watchful_of_run run
  have none_ready : w.shop.schedule.ready = [] := idle
  have pumps (u : TaskId) (q : Pump) (there : w.tasks[u]? = some (.pump q)) :
      q.state = .ended := by
    by_contra live
    simpa [none_ready] using (barred_pump fired run there live).1
  cases task with
  | pump q => simp [EngineTask.isEnded, pumps t q found]
  | source state recording =>
      by_contra runs
      have runs : state ≠ .ended := by
        rintro rfl
        exact runs rfl
      simpa [none_ready] using (barred_source fired watchful found runs).1
  | join call =>
      have blocked := watchful.blocked idle found
      cases call with
      | locking =>
          have queued := blocked.1
          rw [lock_of_idle watchful (lined_of_run run) idle pumps] at queued
          cases queued
      | joining awaited =>
          obtain ⟨u, member, runs⟩ := blocked
          obtain ⟨gvk, other, there, resembles⟩ := (watchful.grounded t _ found).pumps u member
          cases other with
          | pump q => simp [hasEnded, there, EngineTask.isEnded, pumps u q there] at runs
          | _ => exact resembles.elim
      | ended => rfl
  | _ => cases underway

/-- Those who wait for somebody on the way find that he has ended. -/
theorem ended_of_has (run : conduct.Run (ofPlan options plan) past w)
    (idle : Cooperative.Idle w) {like : EngineTask} (has : w.Has t like)
    (underway : like.isUnderway = true) : w.hasEnded t = true := by
  obtain ⟨task, found, resembles⟩ := has
  have ended := underway_of_idle fired run idle found (resembles.isUnderway underway)
  simp [hasEnded, found, ended]

theorem told_of_idle (watchful : w.Watchful) (idle : Cooperative.Idle w)
    (has : w.Has t (.startup .fresh)) : w.startupResult? t ≠ none := by
  obtain ⟨task, found, resembles⟩ := has
  cases task with
  | startup state =>
      cases state with
      | fresh => exact (watchful.blocked idle found).elim
      | hydrating => cases (watchful.blocked idle found).1.symm.trans fired
      | ended => simp [startupResult?, found]
  | _ => exact resembles.elim

omit fired in
/-- The worker of a queue that is closed has stopped, unless it reconciles a key. -/
theorem worker_of_idle (watchful : w.Watchful) (idle : Cooperative.Idle w)
    (shut : w.shop.queue.closed = true) (has : w.Has t (.worker .asking))
    (free : ∀ key result due, w.tasks[t]? ≠ some (.worker (.working key result due))) :
    w.hasEnded t = true := by
  obtain ⟨task, found, resembles⟩ := has
  cases task with
  | worker state =>
      cases state with
      | asking =>
          have waits : t ∈ w.shop.bell.waiting := watchful.blocked idle found
          simp [watchful.shut shut] at waits
      | working key result due => exact absurd found (free key result due)
      | stopped => simp [hasEnded, found, EngineTask.isEnded]
  | _ => exact resembles.elim

/-- When nothing can move and no key is being reconciled, a pipeline has ended. -/
theorem pipeline_of_idle (run : conduct.Run (ofPlan options plan) past w)
    (idle : Cooperative.Idle w)
    (free : ∀ (u : TaskId) key result due,
      w.tasks[u]? ≠ some (.worker (.working key result due)))
    {state : Pipeline} (found : w.tasks[t]? = some (.pipeline state)) :
    ∃ result, state = .ended result := by
  have watchful := watchful_of_run run
  have blocked := watchful.blocked idle found
  have grounded := watchful.grounded t _ found
  cases state with
  | fresh => exact blocked.elim
  | syncing =>
      have untold : w.gate.answer? w.fired = none := blocked
      simp [SyncState.answer?, fired] at untold
  | failing => exact absurd blocked (told_of_idle fired watchful idle grounded.2)
  | opening => exact absurd blocked (told_of_idle fired watchful idle grounded.2)
  | draining => cases (ended_of_has fired run idle grounded rfl).symm.trans blocked
  | running => cases (stopReason?_eq_none.1 blocked).1.symm.trans fired
  | stopping source worker r =>
      obtain ⟨receives, works, manned, -, shut⟩ := grounded
      obtain runs | runs | ⟨u, member, runs⟩ := blocked
      · cases (ended_of_has fired run idle receives rfl).symm.trans runs
      · cases (worker_of_idle watchful idle shut works (free worker)).symm.trans runs
      · obtain ⟨gvk, pump⟩ := manned.pumps u member
        cases (ended_of_has fired run idle pump rfl).symm.trans runs
  | ended result => exact ⟨result, rfl⟩

end Turns

/-- From the moment at which the token has fired, nothing enters the channel and no key is
handed over. Every pump and every source that has not ended is ready by then. A pump ends
when it next goes on, and so does a source, unless it is only about to begin. When nothing
can move, they all have ended, and with them whoever waited for the streams to end. -/
theorem barred_of_fired (run : conduct.Run (ofPlan options plan) past w)
    (fired : w.fired = true) :
    (∀ entry ∈ past, entry.1.fired = true →
      w.shop.history.entered = entry.1.shop.history.entered ∧
      w.shop.history.keyed = entry.1.shop.history.keyed) ∧
    (∀ (t : TaskId) q, w.tasks[t]? = some (.pump q) → q.state ≠ .ended →
      t ∈ w.shop.schedule.ready ∧
      (conduct.after w (.move t)).tasks[t]? = some (.pump { q with state := .ended })) ∧
    (∀ (t : TaskId) state recording, w.tasks[t]? = some (.source state recording) →
      state ≠ .ended → t ∈ w.shop.schedule.ready ∧
      (conduct.after w (.move t)).tasks[t]? =
        some (.source (if state = .fresh then .running else .ended) recording)) ∧
    (Cooperative.Idle w → ∀ (t : TaskId) task, w.tasks[t]? = some task →
      task.isUnderway = true → task.isEnded = true) := by
  refine ⟨fun entry member before => (carried_of_fired run entry member before).2,
    fun t q found live => barred_pump fired run found live,
    fun t state recording found runs => barred_source fired (watchful_of_run run) found runs,
    fun idle t task found underway => underway_of_idle fired run idle found underway⟩

def roomForTwo : EngineOptions where
  capacity := 2

/-- Two changes are in the channel and a third waits for room; the source takes one, which
makes room, and then the token fires. Somebody waits for the stream to end. -/
def firedInTime : List (Happening Command) :=
  [.command .start, .command .source] ++ [0, 0, 1, 1, 2].map .move ++
  [.command (.arrive configMap (.item (.ok .hydrated)))] ++
  ["a", "b", "c"].map (fun name => .command (.arrive configMap
    (.item (.ok (.change (.added (namedObject name "1"))))))) ++
  [2, 0, 2, 2, 2].map .move ++ [.command (.join true), .move 3, .move 3, .move 1, .command .cancel]

/-- Neither the change that was given room nor the one that was left passes. -/
theorem barred_of_firedInTime :
    ∃ past w, conduct.Run (ofPlan roomForTwo everyConfigMap) past w ∧ w.fired = true ∧
      (∃ entry ∈ past, entry.1.fired = true ∧ entry.1.channel.granted = [2] ∧
        entry.1.channel.buffer.length = 1 ∧
        w.shop.history.entered = entry.1.shop.history.entered ∧
        w.shop.history.keyed = entry.1.shop.history.keyed) ∧
      w.shop.history.entered.length = 2 ∧ w.shop.history.keyed.length = 1 ∧
      Cooperative.Idle w ∧
      (∃ task, w.tasks[3]? = some task ∧ task.isUnderway = true ∧ task.isEnded = true) := by
  have begun : conduct.Run (ofPlan roomForTwo everyConfigMap) []
      (ofPlan roomForTwo everyConfigMap) := .start
  obtain ⟨past, w, run, fired, before, entered, keyed, ready, joins⟩ :
      ∃ past w, conduct.Run (ofPlan roomForTwo everyConfigMap) past w ∧ w.fired = true ∧
        past.any (fun entry => entry.1.fired && entry.1.channel.granted == [2] &&
          entry.1.channel.buffer.length == 1) = true ∧
        w.shop.history.entered.length = 2 ∧ w.shop.history.keyed.length = 1 ∧
        w.shop.schedule.ready = [] ∧
        w.tasks[3]?.any EngineTask.isUnderway = true :=
    ⟨_, _, begun.follow (firedInTime ++ [2, 1, 3].map .move) (by decide +kernel), by decide +kernel⟩
  obtain ⟨barred, -, -, at_rest⟩ := barred_of_fired run fired
  obtain ⟨entry, member, then_fired⟩ := List.any_eq_true.1 before
  simp only [Bool.and_eq_true, beq_iff_eq] at then_fired
  obtain ⟨⟨fired₁, granted⟩, left⟩ := then_fired
  obtain ⟨task, found, underway⟩ := (Option.any_eq_true _ _).1 joins
  exact ⟨past, w, run, fired, ⟨entry, member, fired₁, granted, left, barred entry member fired₁⟩,
    entered, keyed, idle_iff.2 ready, task, found, underway,
    at_rest (idle_iff.2 ready) 3 task found underway⟩

end Engine

end ResourceWatch
