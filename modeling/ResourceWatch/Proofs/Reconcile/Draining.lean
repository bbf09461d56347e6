import Mathlib.Data.List.Perm.Lattice
import ResourceWatch.Proofs.Reconcile.Retries

/-!
# Workers drain a queue that is closed

After the queue is closed no push counts, so a dirty key can only be handed out. The workers
take every key once that was dirty then, and no other.

A worker ends only when it finds the queue closed and nothing waiting. Keys that wait then
again come from a reconcile that another worker had in hand, and that worker asks again. So
when all workers have ended, no key waits, none is dirty and none is in flight: whatever was
pushed before the closing was handed out after it was pushed.
-/

namespace ResourceWatch

namespace WorkQueue

variable {q : WorkQueue} {key : String}

/-- A push at a closed queue changes nothing. -/
theorem push_of_closed (closed : q.closed = true) (key : String) : (q.push key).1 = q := by
  simp [push, closed]

end WorkQueue

/-- Whoever is told that there are no more keys finds the queue closed and nothing waiting. -/
theorem Desk.ended_of_ask {d : Desk} {t : TaskId} (answered : (d.ask t).2 = .noMore) :
    d.queue.closed = true ∧ d.queue.queue = [] ∧ (d.ask t).1.queue = d.queue := by
  refine ⟨closed_of_ask answered, ?_, ?_⟩
  · rw [ask] at answered
    split at answered
    · cases answered
    · dsimp only at answered
      cases taken : d.queue.take? with
      | some pair => simp [taken] at answered
      | none => exact WorkQueue.take?_eq_none.1 taken
  · obtain ⟨key, queue, bell, -, asked⟩ | ⟨bell, answer, asked, -⟩ := d.ask_cases t
    · simp [asked] at answered
    · rw [asked]

theorem Worker.ended_of_act {s : Workshop} {t fresh : TaskId} {worker : Worker}
    (stops : (worker.act s t fresh).worker = .stopped) (goes_on : worker ≠ .stopped) :
    worker = .asking ∧ s.queue.closed = true ∧ s.queue.queue = [] ∧
      (worker.act s t fresh).workshop.queue = s.queue := by
  cases worker with
  | stopped => exact absurd rfl goes_on
  | working key result due =>
      simp only [act] at stops
      split at stops
      · rw [(settled _ key result fresh).worker] at stops
        cases stops
      · cases stops
  | asking =>
      refine ⟨rfl, ?_⟩
      have ended : (s.toDesk.ask t).2 = .noMore → _ := s.toDesk.ended_of_ask
      simp only [act] at stops ⊢
      rcases asked : s.toDesk.ask t with ⟨desk, answer⟩
      rw [asked] at ended
      cases answer with
      | noMore => exact ended rfl
      | key key =>
          simp only [asked] at stops
          split at stops
          · rw [(settled _ key _ fresh).worker] at stops
            cases stops
          · cases stops
      | again | wait => simp [asked] at stops

namespace WorkerWorld

open WorkQueue

variable {w w₁ : WorkerWorld} {past : Past WorkerWorld Command} {t u : TaskId} {k : String}
  {h : Happening Command} {tasks more : List Task} {task : Task} {queue queue' : WorkQueue}
  {backoff : Backoff} {reconciler : Reconciler} {cache : Cache}

section Closed

/-! ### No push counts any more -/

/-- A push that comes after the closing changes nothing. -/
theorem still_of_pushes (closed : w.shop.queue.closed = true) (pushed : k ∈ w.pushes h) :
    (conduct.after w h).shop.queue = w.shop.queue := by
  cases h with
  | elapse time => simp [pushes] at pushed
  | command c =>
      show (w.apply c).shop.queue = _
      cases c with
      | push key => simp [apply, onDesk, push_of_closed closed]
      | pushAfter key millis =>
          by_cases none : millis = 0
          · simp [apply, onDesk, none, push_of_closed closed]
          · simp [pushes, none] at pushed
      | start | close | pass => simp [pushes] at pushed
  | move t =>
      obtain ⟨due, sleeping, late⟩ := of_mem_fires pushed
      show (Cooperative.run w t).shop.queue = _
      cases (w.turn_run t).1 with
      | rests _ _ queue_eq | sleeps _ _ _ _ queue_eq | stops _ _ _ queue_eq => exact queue_eq
      | fires key due _ _ _ queue_eq => exact queue_eq.trans (push_of_closed closed key)
      | takes _ _ _ asking => simp [sleeping] at asking
      | concludes _ _ _ _ holds =>
          cases holds with
          | taken asking => simp [sleeping] at asking
          | worked working => simp [sleeping] at working

/-- After the closing a dirty key stays dirty until it is handed out, and no key becomes
dirty. -/
theorem begins_append_dirty (run : conduct.Run (start backoff reconciler cache) past w)
    (possible : conduct.Possible past w h) (closed : w.shop.queue.closed = true) :
    (w.begins h ++ (conduct.after w h).shop.queue.dirty).Perm w.shop.queue.dirty := by
  have sound := sound_of_run run
  have explained := sound.story.explained
  have next := (sound_of_run (run.next possible)).story.explained
  have begun : (w.begins h).Nodup ∧ w.begins h ⊆ w.shop.queue.dirty := by
    cases all : w.begins h with
    | nil => simp
    | cons k rest =>
        obtain ⟨one, -, waits, -⟩ := sound.of_begins (h := h) (k := k) (by simp [all])
        obtain ⟨-, rfl⟩ := List.cons.inj (all.symm.trans one)
        simpa using explained.dirty_of_queued k waits
  refine (List.perm_ext_iff_of_nodup ?_ explained.dirty_nodup).2 fun k => ?_
  · refine List.nodup_append'.2 ⟨begun.1, next.dirty_nodup, fun k handed dirty => ?_⟩
    have := sound.mem_dirty_after h |>.1 dirty
    simp [handed, closed] at this
  · rw [List.mem_append, sound.mem_dirty_after]
    have := @begun.2 k
    simp only [closed]
    tauto

theorem closed_of_run (run : conduct.Run (start backoff reconciler cache) past w)
    (member : (w₁, .command .close) ∈ past) : w.shop.queue.closed = true := by
  refine (sound_of_run run).story.explained.closed_iff.2 ?_
  exact List.mem_flatMap.2 ⟨_, member, by simp [deeds, closes]⟩

/-- From the closing on, no push changes anything. -/
theorem still_since_closing {before later : Past WorkerWorld Command}
    (run : conduct.Run (start backoff reconciler cache)
      (before ++ (w₁, .command .close) :: later) w)
    {entry : WorkerWorld × Happening Command} (member : entry ∈ later)
    (pushed : k ∈ entry.1.pushes entry.2) :
    (conduct.after entry.1 entry.2).shop.queue = entry.1.shop.queue := by
  obtain ⟨earlier, rest, rfl⟩ := List.append_of_mem member
  have closing : (w₁, .command .close) ∈ before ++ (w₁, .command .close) :: earlier := by simp
  exact still_of_pushes (closed_of_run run.splitSince.1 closing) pushed

/-- From the closing on, the keys that are handed out are those that were dirty, without those
that still are. -/
theorem begins_since_closing (run : conduct.Run (start backoff reconciler cache) past w) :
    ∀ before w₁ later, past = before ++ (w₁, .command .close) :: later →
      ((later.flatMap fun e => e.1.begins e.2) ++ w.shop.queue.dirty).Perm
        w₁.shop.queue.dirty := by
  induction run with
  | start => simp
  | @next past w h run possible ih =>
      intro before w₁ later split
      obtain ⟨rfl, same, rfl⟩ | ⟨rest, rfl, rfl⟩ := append_singleton_eq_append_cons.1 split
      · cases same
        exact .refl _
      · have closed := closed_of_run run (List.mem_append_right before List.mem_cons_self)
        simp only [List.flatMap_append, List.flatMap_cons, List.flatMap_nil, List.append_nil,
          List.append_assoc]
        exact ((begins_append_dirty run possible closed).append_left _).trans
          (ih before w₁ rest rfl)

end Closed

section Ended

/-! ### What is left when workers end -/

def Gone (tasks : List Task) : Prop := ∃ t : TaskId, tasks[t]? = some (.worker .stopped)

def Stays (tasks : List Task) : Prop :=
  ∃ (t : TaskId) (state : Worker), tasks[t]? = some (.worker state) ∧ state ≠ .stopped

/-- Every key in flight is being reconciled; and where a worker has ended, the queue is
closed, and nothing waits or another worker goes on. -/
structure Drains (tasks : List Task) (queue : WorkQueue) : Prop where
  held : ∀ k ∈ queue.inFlight, ∃ t, Works tasks t k
  left : Gone tasks → queue.closed = true ∧ (queue.queue = [] ∨ Stays tasks)

theorem works_of_append (works : Works tasks u k) (more : List Task) :
    Works (tasks ++ more) u k := by
  obtain ⟨result, due, found⟩ := works
  have known := (List.getElem?_eq_some_iff.1 found).1
  exact ⟨result, due, (List.getElem?_append_left known).trans found⟩

theorem works_of_set (works : Works tasks u k) (other : t ≠ u) (task : Task) :
    Works (tasks.set t task) u k := by
  obtain ⟨result, due, found⟩ := works
  exact ⟨result, due, (List.getElem?_set_ne other).trans found⟩

theorem Gone.of_append (gone : Gone (tasks ++ more)) (none : Task.worker .stopped ∉ more) :
    Gone tasks := by
  obtain ⟨t, found⟩ := gone
  obtain known | beyond := Nat.lt_or_ge t tasks.length
  · exact ⟨t, (List.getElem?_append_left known).symm.trans found⟩
  · rw [List.getElem?_append_right beyond] at found
    exact absurd (List.mem_of_getElem? found) none

theorem Gone.of_set (gone : Gone (tasks.set t task)) (goes_on : task ≠ Task.worker .stopped) :
    Gone tasks := by
  obtain ⟨u, found⟩ := gone
  rw [List.getElem?_set] at found
  split at found
  · split at found
    · exact absurd (Option.some.inj found) goes_on
    · cases found
  · exact ⟨u, found⟩

theorem Stays.append (stays : Stays tasks) (more : List Task) : Stays (tasks ++ more) := by
  obtain ⟨t, state, found, goes_on⟩ := stays
  have known := (List.getElem?_eq_some_iff.1 found).1
  exact ⟨t, state, (List.getElem?_append_left known).trans found, goes_on⟩

namespace Drains

variable {p p' : DelayedPush} {state : Worker} {key : String} {result : ReconcileResult}

theorem append (drains : Drains tasks queue) (none : Task.worker .stopped ∉ more) :
    Drains (tasks ++ more) queue where
  held k flight := (drains.held k flight).imp fun _ works => works_of_append works more
  left gone := (drains.left (gone.of_append none)).imp_right (·.imp_right (·.append more))

/-- A put-off push takes no part. -/
theorem set (drains : Drains tasks queue) (found : tasks[t]? = some (.delayed k p)) :
    Drains (tasks.set t (.delayed k p')) queue where
  held key flight := by
    obtain ⟨u, result, due, works⟩ := drains.held key flight
    have other : t ≠ u := by
      rintro rfl
      cases found.symm.trans works
    exact ⟨u, works_of_set ⟨result, due, works⟩ other _⟩
  left gone := by
    refine (drains.left (gone.of_set (by simp))).imp_right (·.imp_right ?_)
    rintro ⟨u, state, worker, goes_on⟩
    have other : t ≠ u := by
      rintro rfl
      cases found.symm.trans worker
    exact ⟨u, state, (List.getElem?_set_ne other).trans worker, goes_on⟩

theorem push (drains : Drains tasks queue) (key : String) :
    Drains tasks (queue.push key).1 where
  held k flight := drains.held k (by simpa using flight)
  left gone := by
    have left := drains.left gone
    rwa [push_of_closed left.1]

theorem close (drains : Drains tasks queue) : Drains tasks queue.close where
  held := drains.held
  left gone := ⟨rfl, (drains.left gone).2⟩

/-- A worker that ends leaves nothing waiting. -/
theorem stop (drains : Drains tasks queue) (asking : tasks[t]? = some (.worker .asking))
    (closed : queue.closed = true) (empty : queue.queue = []) :
    Drains (tasks.set t (.worker .stopped)) queue where
  held k flight := by
    obtain ⟨u, result, due, works⟩ := drains.held k flight
    have other : t ≠ u := by
      rintro rfl
      cases asking.symm.trans works
    exact ⟨u, works_of_set ⟨result, due, works⟩ other _⟩
  left _ := ⟨closed, .inl empty⟩

theorem take (drains : Drains tasks queue) (consistent : queue.Consistent)
    (asking : tasks[t]? = some (.worker .asking)) (taken : queue.take? = some (key, queue'))
    (result : ReconcileResult) (due : Nat) :
    Drains (tasks.set t (.worker (.working key result due))) queue' where
  held k flight := by
    have known := (List.getElem?_eq_some_iff.1 asking).1
    rw [consistent.take?_inFlight taken, List.mem_append, List.mem_singleton] at flight
    obtain flight | rfl := flight
    · obtain ⟨u, result, due, works⟩ := drains.held k flight
      have other : t ≠ u := by
        rintro rfl
        cases asking.symm.trans works
      exact ⟨u, works_of_set ⟨result, due, works⟩ other _⟩
    · exact ⟨t, result, due, by simp [known]⟩
  left gone := by
    have known := (List.getElem?_eq_some_iff.1 asking).1
    have closed := (drains.left (gone.of_set (by simp))).1
    obtain ⟨rest, -, rfl⟩ := take?_eq_some.1 taken
    exact ⟨closed, .inr ⟨t, .working key result due, by simp [known], by simp⟩⟩

/-- A worker that reports a key done asks again. -/
theorem finish (drains : Drains tasks queue) (consistent : queue.Consistent)
    (works : Works tasks t key) :
    Drains (tasks.set t (.worker .asking)) (queue.finish key).1 where
  held k flight := by
    rw [finish_inFlight, consistent.inFlight_nodup.mem_erase_iff] at flight
    obtain ⟨u, works'⟩ := drains.held k flight.2
    have other : t ≠ u := by
      rintro rfl
      obtain ⟨result, due, found⟩ := works
      obtain ⟨result', due', found'⟩ := works'
      cases found.symm.trans found'
      exact flight.1 rfl
    exact ⟨u, works_of_set works' other _⟩
  left gone := by
    obtain ⟨result, due, found⟩ := works
    have known := (List.getElem?_eq_some_iff.1 found).1
    have closed := (drains.left (gone.of_set (by simp))).1
    exact ⟨by simpa using closed, .inr ⟨t, .asking, by simp [known], by simp⟩⟩

end Drains

/-- A worker ends only at a queue that is closed and has nothing waiting. -/
theorem empty_of_stops (asking : w.tasks[t]? = some (.worker .asking))
    (stops : (Cooperative.run w t).tasks[t]? = some (.worker .stopped)) :
    w.shop.queue.queue = [] := by
  obtain ⟨s, -, same⟩ := w.run_eq t
  have known := (List.getElem?_eq_some_iff.1 asking).1
  rw [same] at stops
  change (w.act t).1.tasks[t]? = _ at stops
  simp only [act, asking] at stops
  rw [List.getElem?_append_left (by simpa using known), List.getElem?_set_self known] at stops
  have ended : (Worker.asking.act w.shop t w.tasks.length).worker = .stopped := by
    simpa using stops
  exact (Worker.ended_of_act ended (by simp)).2.2.1

theorem drains_move (drains : Drains w.tasks w.shop.queue)
    (consistent : w.shop.queue.Consistent) (t : TaskId) :
    Drains (Cooperative.run w t).tasks (Cooperative.run w t).shop.queue := by
  have retries (key : String) (result : ReconcileResult) : Task.worker .stopped ∉
      ((w.shop.ledger.retry? key result).map (retryTask key)).toList := by
    simp [retryTask]
  cases (w.turn_run t).1 with
  | rests _ tasks_eq queue_eq =>
      rw [tasks_eq, queue_eq]
      exact drains
  | stops asking closed tasks_eq queue_eq =>
      have known := (List.getElem?_eq_some_iff.1 asking).1
      have empty := empty_of_stops asking (by simp [tasks_eq, known])
      rw [tasks_eq, queue_eq]
      exact drains.stop asking closed empty
  | sleeps key millis fresh tasks_eq queue_eq =>
      rw [tasks_eq, queue_eq]
      exact drains.set fresh
  | fires key due sleeping late tasks_eq queue_eq =>
      rw [tasks_eq, queue_eq]
      exact (drains.push key).set sleeping
  | takes key result due asking taken tasks_eq =>
      rw [tasks_eq]
      exact drains.take consistent asking taken result due
  | concludes key result held begun holds tasks_eq queue_eq =>
      rw [tasks_eq, queue_eq]
      refine Drains.append ?_ (retries key result)
      cases holds with
      | taken asking taken =>
          have known := (List.getElem?_eq_some_iff.1 asking).1
          have takes := drains.take consistent asking taken result 0
          have works : Works (w.tasks.set t (.worker (.working key result 0))) t key :=
            ⟨result, 0, by simp [known]⟩
          simpa using takes.finish (consistent.take? taken) works
      | worked working => exact drains.finish consistent ⟨result, _, working⟩

theorem drains_of_run (run : conduct.Run (start backoff reconciler cache) past w) :
    Drains w.tasks w.shop.queue := by
  induction run with
  | start => exact ⟨by simp [start], by simp [start, Gone]⟩
  | @next past w h run possible ih =>
      cases h with
      | move t => exact drains_move ih (sound_of_run run).story.explained.toConsistent t
      | elapse time => exact ih
      | command c =>
          show Drains (w.apply c).tasks (w.apply c).shop.queue
          have none : Task.worker .stopped ∉ brings c := by
            cases c <;> simp [brings]
          rw [apply_tasks]
          refine Drains.append ?_ none
          cases c with
          | start | pass => simpa [apply, spawn, Desk.wake] using ih
          | push key => simpa [apply, onDesk] using ih.push key
          | pushAfter key millis =>
              by_cases now : millis = 0
              · simpa [apply, onDesk, now] using ih.push key
              · simpa [apply, spawn, Desk.wake, now] using ih
          | close => simpa [apply, onDesk] using ih.close

/-- When workers have ended and none goes on, no key waits, is dirty or is in flight. -/
theorem empty_of_gone (run : conduct.Run (start backoff reconciler cache) past w)
    (gone : Gone w.tasks) (all : ¬ Stays w.tasks) :
    w.shop.queue.queue = [] ∧ w.shop.queue.dirty = [] ∧ w.shop.queue.inFlight = [] := by
  have drains := drains_of_run run
  have empty := (drains.left gone).2.resolve_right all
  have free : w.shop.queue.inFlight = [] := by
    refine List.eq_nil_iff_forall_not_mem.2 fun k flight => ?_
    obtain ⟨t, result, due, works⟩ := drains.held k flight
    exact all ⟨t, _, works, by simp⟩
  exact ⟨empty, (sound_of_run run).story.explained.dirty_eq_nil empty free, free⟩

/-- When workers have ended and none goes on, what was pushed before any closing was handed out
later. -/
theorem handed_of_gone (run : conduct.Run (start backoff reconciler cache) past w)
    (gone : Gone w.tasks) (all : ¬ Stays w.tasks) {before later : List Deed}
    (pushed : story past = before ++ .pushed k :: later) (early : .closed ∉ before) :
    .handed k ∈ later := by
  have kept := (sound_of_run run).story.explained.kept before later k pushed early
  exact kept.resolve_left (by simp [(empty_of_gone run gone all).2.1])

end Ended

end WorkerWorld

end ResourceWatch
