import ResourceWatch.Proofs.Reconcile.Draining
import ResourceWatch.Proofs.WorkQueue.Wakeups

/-!
# No worker rests while a key waits

Workers are called by the bell like anybody who asks for a key. A worker that asks can go on
or waits for the bell, and enough of those who wait have been woken for the keys that wait. A
worker that has had a result asks again, and whatever it did before has served the others.

So where nothing can move and no key is in flight, no key is left, as long as there is a
worker at all.
-/

namespace ResourceWatch

namespace Desk

variable {d d' : Desk}

/-- Where neither the bell nor the queue has changed, nobody is called in vain. -/
theorem Rings.of (schedule : d.schedule.Serves d'.schedule) (bell : d'.bell = d.bell)
    (queue : d'.queue = d.queue) : d.Rings d' where
  serves := .of schedule (by rw [bell]) (by rw [queue])
  rouses h := h.of bell (by rw [queue]) (by rw [queue]) schedule.keeps
  called t there := bell ▸ there

end Desk

namespace Workshop

variable {s : Workshop} {key : String}

theorem rings_begin (s : Workshop) (key : String) : s.toDesk.Rings (s.begin key).1.toDesk := by
  obtain ⟨lines, reconciler, began, -⟩ := s.begin_eq key
  rw [began]
  exact .of (.refl _) rfl rfl

theorem rings_enter (s : Workshop) (key : String) (result : ReconcileResult) :
    s.toDesk.Rings (s.enter key result).1.toDesk := by
  obtain ⟨lines, entered, -⟩ := s.enter_eq key result
  rw [entered]
  exact .of (.refl _) rfl rfl

end Workshop

theorem Worker.rings_settle (s : Workshop) (key : String) (result : ReconcileResult)
    (fresh : TaskId) : s.toDesk.Rings (settle s key result fresh).workshop.toDesk := by
  let told := s.note (.reconciled key result s.schedule.now)
  have tells : s.toDesk.Rings told.toDesk := .of (.refl _) rfl rfl
  have entered := tells.trans (told.rings_enter key result)
  simp only [settle]
  split
  all_goals
    rename_i entering
    rw [entering] at entered
  · exact entered.trans (Desk.rings_finish _ key)
  · rename_i s₁ delay
    have woken : s₁.toDesk.Rings (s₁.toDesk.wake fresh) := .of (Schedule.serves_wake _ _) rfl rfl
    exact (entered.trans woken).trans (Desk.rings_finish _ key)

namespace WorkerWorld

variable {w : WorkerWorld} {s : Workshop} {past : Past WorkerWorld Command} {t u : TaskId}
  {tasks : List Task} {task : Task} {d d' : Desk} {backoff : Backoff}
  {reconciler : Reconciler} {cache : Cache}

/-- The bell calls workers that ask for a key, and every worker that asks can go on or waits
for the bell. -/
structure Staffed (tasks : List Task) (d : Desk) : Prop where
  rouses : d.Rouses
  asking : ∀ t ∈ d.bell.called, tasks[t]? = some (.worker .asking)
  attended : ∀ t : TaskId, tasks[t]? = some (.worker .asking) →
    t ∈ d.schedule.ready ∨ t ∈ d.bell.waiting

namespace Staffed

theorem rings (h : Staffed tasks d) (rings : d.Rings d') : Staffed tasks d' where
  rouses := rings.rouses h.rouses
  asking t there := h.asking t (rings.called t there)
  attended t asks := (h.attended t asks).elim (fun ready => .inl (rings.serves.keeps t ready))
    fun waits => (rings.serves.waits t waits).symm

/-- A task that the bell does not call may become anything, and can go on if it is to ask. -/
theorem set (h : Staffed tasks d) (task : Task) (out : t ∉ d.bell.called)
    (ready : task = .worker .asking → t ∈ d.schedule.ready) : Staffed (tasks.set t task) d where
  rouses := h.rouses
  asking u there := by
    have other : t ≠ u := fun same => out (same ▸ there)
    rw [List.getElem?_set_ne other]
    exact h.asking u there
  attended u asks := by
    rw [List.getElem?_set] at asks
    split at asks
    · rename_i same
      split at asks
      · exact .inl (same ▸ ready (Option.some.inj asks))
      · cases asks
    · exact h.attended u asks

/-- A task that comes can go on if it is to ask. -/
theorem append (h : Staffed tasks d)
    (ready : task = .worker .asking → tasks.length ∈ d.schedule.ready) :
    Staffed (tasks ++ [task]) d where
  rouses := h.rouses
  asking u there := by
    have asks := h.asking u there
    rwa [List.getElem?_append_left (List.getElem?_eq_some_iff.1 asks).1]
  attended u asks := by
    obtain known | beyond := Nat.lt_or_ge u tasks.length
    · exact h.attended u (List.getElem?_append_left known ▸ asks)
    · rw [List.getElem?_append_right beyond, List.getElem?_singleton] at asks
      split at asks
      · rename_i last
        have here := Nat.le_antisymm (Nat.le_of_sub_eq_zero last) beyond
        exact .inl (here ▸ ready (Option.some.inj asks))
      · cases asks

/-- Whoever asks is told to wait, or the bell calls it no more. -/
theorem ask (h : Staffed tasks d) (asks : tasks[t]? = some (.worker .asking)) :
    Staffed tasks (d.ask t).1 where
  rouses := h.rouses.ask t
  asking u there := by
    obtain ⟨earlier, -⟩ | ⟨rfl, -⟩ := h.rouses.called_ask there
    · exact h.asking u earlier
    · exact asks
  attended u waits := (h.attended u waits).elim
    (fun ready => .inl ((d.serves_ask t).keeps u ready))
    fun waits => ((d.serves_ask t).waits u waits).symm

/-- A task may rest that has not been woken, and waits for the bell if it asks. -/
theorem rest (h : Staffed tasks d) (unwoken : t ∉ d.bell.owing)
    (waits : tasks[t]? = some (.worker .asking) → t ∈ d.bell.waiting) :
    Staffed tasks { d with schedule := d.schedule.rest t } where
  rouses :=
    { covers := h.rouses.covers
      woken := fun u owes => Schedule.mem_rest_of_ne (h.rouses.woken u owes)
        fun same => unwoken (same ▸ owes)
      shut := h.rouses.shut }
  asking := h.asking
  attended u asks := by
    by_cases same : u = t
    · subst same
      exact .inr (waits asks)
    · exact (h.attended u asks).imp_left fun ready => Schedule.mem_rest_of_ne ready same

/-- A worker whose reconcile has a result asks again, and can go on. -/
theorem settle (h : Staffed tasks s.toDesk) (out : t ∉ s.bell.called)
    (ready : t ∈ s.schedule.ready) (key : String) (result : ReconcileResult) (fresh : TaskId) :
    let move := Worker.settle s key result fresh
    Staffed (tasks.set t (.worker move.worker) ++ (move.retry.map fun (key, millis) =>
      Task.delayed key (.fresh millis)).toList) move.workshop.toDesk := by
  intro move
  have rings : s.toDesk.Rings move.workshop.toDesk := Worker.rings_settle s key result fresh
  have again := (h.rings rings).set (.worker move.worker)
    (fun there => out (rings.called t there)) fun _ => rings.serves.keeps t ready
  cases retry : move.retry with
  | none => simpa using again
  | some entry => exact again.append (by simp)

/-- The bell does not call a task that does not ask. -/
theorem uncalled (h : Staffed tasks d) (silent : tasks[t]? ≠ some (.worker .asking)) :
    t ∉ d.bell.called := fun there => silent (h.asking t there)

theorem mayRest (h : Staffed tasks d) (silent : tasks[t]? ≠ some (.worker .asking)) :
    t ∉ d.bell.owing ∧ (tasks[t]? = some (.worker .asking) → t ∈ d.bell.waiting) :=
  ⟨fun owes => h.uncalled silent (Bell.mem_called.2 (.inr owes)),
    fun asks => absurd asks silent⟩

theorem set_silent (h : Staffed tasks d) (task : Task) (out : t ∉ d.bell.called)
    (silent : task ≠ .worker .asking) : Staffed (tasks.set t task) d ∧
      t ∉ d.bell.owing ∧
        ((tasks.set t task)[t]? = some (.worker .asking) → t ∈ d.bell.waiting) := by
  have becomes := h.set task out fun asks => absurd asks silent
  refine ⟨becomes, becomes.mayRest fun asks => ?_⟩
  rw [List.getElem?_set, if_pos rfl] at asks
  split at asks
  · exact silent (Option.some.inj asks)
  · cases asks

theorem act_asking (h : Staffed w.tasks w.shop.toDesk) (ready : t ∈ w.shop.schedule.ready)
    (asks : w.tasks[t]? = some (.worker .asking)) :
    Staffed (w.act t).1.tasks (w.act t).1.shop.toDesk ∧ ((w.act t).2 = .rests →
      t ∉ (w.act t).1.shop.bell.owing ∧
      ((w.act t).1.tasks[t]? = some (.worker .asking) → t ∈ (w.act t).1.shop.bell.waiting)) := by
  have asked := h.ask asks
  have serves := w.shop.toDesk.serves_ask t
  have still : w.tasks.set t (.worker .asking) = w.tasks := by
    obtain ⟨known, here⟩ := List.getElem?_eq_some_iff.1 asks
    rw [← here, List.set_getElem_self]
  have out (told : (w.shop.toDesk.ask t).2 ≠ .wait) :
      t ∉ (w.shop.toDesk.ask t).1.bell.called := by
    intro there
    obtain ⟨-, other⟩ | ⟨-, waits⟩ := h.rouses.called_ask there
    · exact other rfl
    · exact told waits
  have waits := w.shop.toDesk.mem_waiting_of_ask (t := t)
  simp only [WorkerWorld.act, asks, Worker.act]
  rcases told : w.shop.toDesk.ask t with ⟨desk, answer⟩
  rw [told] at asked serves out waits
  cases answer with
  | key key =>
      have rings := Workshop.rings_begin { w.shop with toDesk := desk } key
      dsimp only
      rcases begun : Workshop.begin { w.shop with toDesk := desk } key with ⟨s, millis, result⟩
      rw [begun] at rings
      have uncalled : t ∉ s.bell.called := fun there => out (by simp) (rings.called t there)
      split
      · exact ⟨(asked.rings rings).settle uncalled
          (rings.serves.keeps t (serves.keeps t ready)) key result _, by
            simp [(Worker.settled s key result _).progress]⟩
      · have armed : s.toDesk.Rings { s.toDesk with
            schedule := s.schedule.setTimer (s.schedule.wakingTime millis) t } :=
          .of (Schedule.serves_setTimer _ _ _) rfl rfl
        obtain ⟨works, rests⟩ := ((asked.rings rings).rings armed).set_silent
          (.worker (.working key result (s.schedule.wakingTime millis))) uncalled (by simp)
        simpa using ⟨works, rests⟩
  | noMore =>
      have logged : desk.Rings (desk.note (.logged .workerStopped)) := .of (.refl _) rfl rfl
      obtain ⟨stops, rests⟩ := (asked.rings logged).set_silent
        (.worker .stopped) (out (by simp)) (by simp)
      simpa using ⟨stops, rests⟩
  | again =>
      dsimp only
      rw [Option.map_none, Option.toList_none, List.append_nil, still]
      exact ⟨asked, by simp⟩
  | wait =>
      have apart := (List.nodup_append.1 asked.rouses.covers.once).2.2
      dsimp only
      rw [Option.map_none, Option.toList_none, List.append_nil, still]
      exact ⟨asked, fun _ => ⟨fun owes => apart t (waits rfl) t owes rfl, fun _ => waits rfl⟩⟩

/-- A task that goes on. If it rests, it has not been woken, and waits for the bell if it
asks. -/
theorem act (h : Staffed w.tasks w.shop.toDesk) (ready : t ∈ w.shop.schedule.ready) :
    Staffed (w.act t).1.tasks (w.act t).1.shop.toDesk ∧ ((w.act t).2 = .rests →
      t ∉ (w.act t).1.shop.bell.owing ∧
      ((w.act t).1.tasks[t]? = some (.worker .asking) → t ∈ (w.act t).1.shop.bell.waiting)) := by
  cases found : w.tasks[t]? with
  | none =>
      simp only [WorkerWorld.act, found]
      exact ⟨h, fun _ => by simpa [found] using h.mayRest (t := t) (by simp [found])⟩
  | some task =>
      cases task with
      | delayed key push =>
          have out := h.uncalled (t := t) (by simp [found])
          have rings := push.rings_act w.shop.toDesk t key
          obtain ⟨acts, rests⟩ := (h.rings rings).set_silent
            (.delayed key (push.act w.shop.toDesk t key).2)
            (fun there => out (rings.called t there)) (by simp)
          simp only [WorkerWorld.act, found]
          exact ⟨acts, fun _ => rests⟩
      | worker state =>
          cases state with
          | asking => exact h.act_asking ready found
          | stopped =>
              obtain ⟨stops, rests⟩ := h.set_silent (t := t) (.worker .stopped)
                (h.uncalled (by simp [found])) (by simp)
              simpa [WorkerWorld.act, found, Worker.act] using ⟨stops, rests⟩
          | working key result due =>
              have out := h.uncalled (t := t) (by simp [found])
              simp only [WorkerWorld.act, found, Worker.act]
              split
              · have ended : w.shop.toDesk.Rings
                    (w.shop.note (.ended key w.shop.schedule.now)).toDesk :=
                  .of (.refl _) rfl rfl
                exact ⟨(h.rings ended).settle (s := w.shop.note _) out ready key result _, by
                  simp [(Worker.settled _ key result _).progress]⟩
              · obtain ⟨works, rests⟩ := h.set_silent
                  (.worker (.working key result due)) out (by simp)
                simpa using ⟨works, rests⟩

/-- Whatever a task does, it goes on or rests as it may. -/
theorem run (h : Staffed w.tasks w.shop.toDesk) (ready : t ∈ w.shop.schedule.ready) :
    Staffed (Cooperative.run w t).tasks (Cooperative.run w t).shop.toDesk := by
  obtain ⟨acted, rests⟩ := h.act ready
  rw [Cooperative.run]
  split
  · rename_i went
    rwa [show w.act t = _ from went] at acted
  · rename_i went
    rw [show w.act t = _ from went] at acted rests
    exact acted.rest (rests rfl).1 (rests rfl).2

theorem elapse (h : Staffed w.tasks w.shop.toDesk) (time : Nat) :
    Staffed w.tasks { w.shop.toDesk with schedule := w.shop.schedule.elapse time } where
  rouses := h.rouses.of rfl rfl rfl (Schedule.keeps_elapse _ _)
  asking := h.asking
  attended t asks := (h.attended t asks).imp_left fun ready => Schedule.keeps_elapse _ _ t ready

theorem apply (h : Staffed w.tasks w.shop.toDesk) (c : Command) :
    Staffed (w.apply c).tasks (w.apply c).shop.toDesk := by
  have spawn (task : Task) : Staffed (w.spawn task).tasks (w.spawn task).shop.toDesk := by
    have woken : w.shop.toDesk.Rings (w.shop.toDesk.wake w.tasks.length) :=
      .of (Schedule.serves_wake _ _) rfl rfl
    exact (h.rings woken).append fun _ => Schedule.mem_wake.2 (.inr rfl)
  cases c with
  | start => exact spawn _
  | push key => exact h.rings (w.shop.toDesk.rings_push key)
  | pushAfter key millis =>
      simp only [WorkerWorld.apply]
      split
      · exact h.rings (w.shop.toDesk.rings_push key)
      · exact spawn _
  | close => exact h.rings w.shop.toDesk.rings_close
  | pass millis => exact h

end Staffed

theorem staffed_of_run (run : conduct.Run (start backoff reconciler cache) past w) :
    Staffed w.tasks w.shop.toDesk := by
  induction run with
  | start => exact ⟨Desk.rouses_empty, by simp [start, Bell.called], by simp [start]⟩
  | @next past w h run possible ih =>
      cases h with
      | move t => exact ih.run possible
      | elapse time => exact ih.elapse time
      | command c => exact ih.apply c

/-- Where nothing can move and no key is in flight, no key is left, as long as there is a
worker. -/
theorem empty_of_idle (run : conduct.Run (start backoff reconciler cache) past w)
    (idle : Cooperative.Idle w) (free : w.shop.queue.inFlight = []) {state : Worker}
    (works : w.tasks[t]? = some (.worker state)) :
    w.shop.queue.queue = [] ∧ w.shop.queue.dirty = [] := by
  have staffed := staffed_of_run run
  have ready : w.shop.schedule.ready = [] := idle
  have consistent := (sound_of_run run).story.explained.toConsistent
  have unheld (u : TaskId) (k : String) : ¬ Works w.tasks u k := fun works => by
    simpa [free] using (sound_of_run run).inFlight u k works
  by_cases asks : ∃ u : TaskId, w.tasks[u]? = some (.worker .asking)
  · obtain ⟨u, asks⟩ := asks
    have waits : u ∈ w.shop.bell.waiting := by simpa [ready] using staffed.attended u asks
    -- whoever is owed a wake-up is ready, and nobody is
    have unowed : w.shop.bell.owing = [] := by
      refine List.eq_nil_iff_forall_not_mem.2 fun v owes => ?_
      simpa [ready] using staffed.rouses.woken v owes
    have enough := staffed.rouses.covers.enough (List.ne_nil_of_mem waits)
    rw [unowed] at enough
    have empty := List.length_eq_zero_iff.1 (Nat.le_zero.1 enough)
    exact ⟨empty, consistent.dirty_eq_nil empty free⟩
  · -- nobody asks and nobody has a key, so all have ended
    have stopped (u : TaskId) (state : Worker) (found : w.tasks[u]? = some (.worker state)) :
        state = .stopped := by
      cases state with
      | stopped => rfl
      | asking => exact absurd ⟨u, found⟩ asks
      | working key result due => exact absurd ⟨result, due, found⟩ (unheld u key)
    have gone : Gone w.tasks := ⟨t, stopped t state works ▸ works⟩
    have all : ¬ Stays w.tasks := fun ⟨u, state, found, goes_on⟩ =>
      goes_on (stopped u state found)
    obtain ⟨queue, dirty, -⟩ := empty_of_gone run gone all
    exact ⟨queue, dirty⟩

end WorkerWorld

end ResourceWatch
