import ResourceWatch.Proofs.Runs
import ResourceWatch.Proofs.WorkQueue.Consistency
import ResourceWatch.WorkQueue.Desk

/-!
# What the desk does to its parts

Every operation of the desk does to the keys what the operation of the work queue
does, leaves everybody ready who was, and adds at most a line of the log to the
record. Asking for a key changes nothing but the bell, unless a key is handed
out.

Whoever waits for the bell waits on, or is made ready; and nobody waits at a queue
that is closed.
-/

namespace ResourceWatch

namespace Schedule

/-- Whoever was ready still is, and no time has passed. -/
structure Serves (s s' : Schedule) : Prop where
  keeps : s.Keeps s'
  now : s'.now = s.now

variable {s s' s'' : Schedule}

theorem Serves.refl (s : Schedule) : s.Serves s := ⟨.refl s, rfl⟩

theorem Serves.trans (h : s.Serves s') (h' : s'.Serves s'') : s.Serves s'' :=
  ⟨h.keeps.trans h'.keeps, h'.now.trans h.now⟩

@[simp] theorem wake_now (s : Schedule) (t : TaskId) : (s.wake t).now = s.now := by
  rw [wake]
  split <;> rfl

@[simp] theorem wakeAll_now (s : Schedule) (ts : List TaskId) : (s.wakeAll ts).now = s.now := by
  rw [wakeAll]
  induction ts generalizing s with
  | nil => rfl
  | cons t ts ih => exact (ih (s.wake t)).trans (wake_now s t)

@[simp] theorem elapse_now (s : Schedule) (time : Nat) : (s.elapse time).now = time :=
  wakeAll_now _ _

theorem serves_wake (s : Schedule) (t : TaskId) : s.Serves (s.wake t) :=
  ⟨keeps_wake s t, wake_now s t⟩

theorem serves_wakeAll (s : Schedule) (ts : List TaskId) : s.Serves (s.wakeAll ts) :=
  ⟨keeps_wakeAll s ts, wakeAll_now s ts⟩

theorem serves_setTimer (s : Schedule) (due : Nat) (t : TaskId) : s.Serves (s.setTimer due t) :=
  ⟨keeps_setTimer s due t, rfl⟩

theorem serves_clearTimers (s : Schedule) (t : TaskId) : s.Serves (s.clearTimers t) :=
  ⟨keeps_clearTimers s t, rfl⟩

end Schedule

/-- A task that would wait uses up a kept ring, or joins those who wait. -/
theorem Bell.await_cases (b : Bell) (t : TaskId) :
    b.await t = ({ b with kept := false }, true) ∨
      b.await t = ({ b with waiting := b.waiting ++ [t] }, false) := by
  rw [await]
  split
  · exact .inl rfl
  · exact .inr rfl

namespace Desk

variable {d : Desk} {key : String} {t : TaskId}

@[simp] theorem ring_queue : d.ring.queue = d.queue := by
  rw [ring]
  split <;> rfl

@[simp] theorem ring_history : d.ring.history = d.history := by
  rw [ring]
  split <;> rfl

theorem keeps_ring (d : Desk) : d.schedule.Keeps d.ring.schedule := by
  rw [ring]
  split
  · exact Schedule.keeps_wake _ _
  · exact .refl _

@[simp] theorem push_queue : (d.push key).queue = (d.queue.push key).1 := by
  rw [push]
  split <;> simp_all [note]

theorem push_history (d : Desk) (key : String) :
    (d.push key).history = d.history ∨
      (d.push key).history = d.history ++ [.logged (.deferring key)] := by
  rw [push]
  split <;> simp [note]

theorem keeps_push (d : Desk) (key : String) : d.schedule.Keeps (d.push key).schedule := by
  rw [push]
  split
  · rename_i queue _
    exact keeps_ring { d with queue }
  · exact .refl _
  · exact .refl _

@[simp] theorem finish_queue : (d.finish key).queue = (d.queue.finish key).1 := by
  rw [finish]
  split <;> simp_all

@[simp] theorem finish_history : (d.finish key).history = d.history := by
  rw [finish]
  split <;> simp

theorem keeps_finish (d : Desk) (key : String) : d.schedule.Keeps (d.finish key).schedule := by
  rw [finish]
  split
  · rename_i queue _
    exact keeps_ring { d with queue }
  · exact .refl _

@[simp] theorem close_queue : d.close.queue = d.queue.close := rfl

@[simp] theorem close_history : d.close.history = d.history := rfl

theorem keeps_close (d : Desk) : d.schedule.Keeps d.close.schedule := Schedule.keeps_wakeAll _ _

@[simp] theorem giveUp_queue : (d.giveUp t).queue = d.queue := by
  rw [giveUp]
  split <;> rfl

/-- Asking hands out the first key, or changes nothing but the bell. -/
theorem ask_cases (d : Desk) (t : TaskId) :
    (∃ key queue bell, d.queue.take? = some (key, queue) ∧
      d.ask t = ({ d with queue, bell }, .key key)) ∨
    (∃ bell answer, d.ask t = ({ d with bell }, answer) ∧ ∀ key, answer ≠ .key key) := by
  rw [ask]
  split
  · exact .inr ⟨d.bell, .wait, rfl, by simp⟩
  · dsimp only
    cases taken : d.queue.take? with
    | some pair => exact .inl ⟨pair.1, pair.2, d.bell.goOn t, rfl, rfl⟩
    | none =>
        refine .inr ?_
        dsimp only
        split
        · exact ⟨d.bell.goOn t, .noMore, rfl, by simp⟩
        · split
          · exact ⟨_, .again, rfl, by simp⟩
          · exact ⟨_, .wait, rfl, by simp⟩

/-- Whoever was ready or waited for the bell does so still, except that the bell makes
ready; no time passes; a closed queue stays so, and if nobody waited at one, nobody does. -/
structure Serves (d d' : Desk) : Prop where
  schedule : d.schedule.Serves d'.schedule
  waits : ∀ t ∈ d.bell.waiting, t ∈ d'.bell.waiting ∨ t ∈ d'.schedule.ready
  closed : d.queue.closed = true → d'.queue.closed = true
  shut : (d.queue.closed = true → d.bell.waiting = []) →
    d'.queue.closed = true → d'.bell.waiting = []

variable {d' d'' : Desk}

theorem Serves.keeps (h : Serves d d') : d.schedule.Keeps d'.schedule := h.schedule.keeps

theorem Serves.trans (h : Serves d d') (h' : Serves d' d'') : Serves d d'' := by
  refine ⟨h.schedule.trans h'.schedule, fun t there => ?_, h'.closed ∘ h.closed,
    fun none => h'.shut (h.shut none)⟩
  obtain still | ready := h.waits t there
  · exact h'.waits t still
  · exact .inr (h'.keeps t ready)

/-- Where the same tasks wait for the bell, and the queue is closed or not as it was,
everybody is served. -/
theorem Serves.of (schedule : d.schedule.Serves d'.schedule)
    (bell : d'.bell.waiting = d.bell.waiting) (closed : d'.queue.closed = d.queue.closed) :
    Serves d d' := by
  refine ⟨schedule, fun t there => .inl (bell ▸ there), fun shut => closed.trans shut,
    fun none shut => ?_⟩
  rw [bell]
  exact none (closed ▸ shut)

theorem Serves.refl (d : Desk) : Serves d d := .of (.refl _) rfl rfl

theorem serves_ring (d : Desk) : d.Serves d.ring := by
  rw [ring, Bell.ring]
  split
  · rename_i rung
    split at rung
    · simp at rung
    · rename_i t rest waiting
      cases rung
      refine ⟨Schedule.serves_wake _ _, fun u there => ?_, id, fun none closed => ?_⟩
      · rw [waiting, List.mem_cons] at there
        exact there.symm.imp_right fun same => Schedule.mem_wake.2 (.inr same)
      · rw [waiting] at none
        exact absurd (none closed) (by simp)
  · rename_i rung
    split at rung
    · cases rung
      exact ⟨.refl _, fun u there => .inl there, id, id⟩
    · simp at rung

theorem serves_push (d : Desk) (key : String) : d.Serves (d.push key) := by
  have closed : (d.queue.push key).1.closed = d.queue.closed := WorkQueue.push_closed
  rw [push]
  split
  all_goals
    rename_i queue pushed
    rw [pushed] at closed
    have first : d.Serves { d with queue } := .of (.refl _) rfl closed
  · exact first.trans (serves_ring _)
  · exact first.trans (.of (.refl _) rfl rfl)
  · exact first

theorem serves_finish (d : Desk) (key : String) : d.Serves (d.finish key) := by
  have closed : (d.queue.finish key).1.closed = d.queue.closed := WorkQueue.finish_closed
  rw [finish]
  split
  all_goals
    rename_i queue finished
    rw [finished] at closed
    have first : d.Serves { d with queue } := .of (.refl _) rfl closed
  · exact first.trans (serves_ring _)
  · exact first

theorem serves_close (d : Desk) : d.Serves d.close :=
  ⟨Schedule.serves_wakeAll _ _, fun _ there => .inr (Schedule.mem_wakeAll.2 (.inr there)),
    fun _ => rfl, fun _ _ => rfl⟩

/-- Whoever asks may wait; the others wait on. -/
theorem serves_ask (d : Desk) (t : TaskId) : d.Serves (d.ask t).1 := by
  rw [ask]
  split
  · exact .refl d
  · dsimp only
    cases taken : d.queue.take? with
    | some pair =>
        obtain ⟨key, queue⟩ := pair
        obtain ⟨rest, -, rfl⟩ := WorkQueue.take?_eq_some.1 taken
        exact .of (.refl _) rfl rfl
    | none =>
        dsimp only
        split
        · exact .of (.refl _) rfl rfl
        · rename_i unclosed
          obtain awaited | awaited := (d.bell.goOn t).await_cases t
          · rw [awaited]
            exact .of (.refl _) rfl rfl
          · rw [awaited]
            exact ⟨.refl _, fun u there => .inl (List.mem_append_left _ there), id,
              fun _ closed => absurd closed unclosed⟩

theorem mem_waiting_of_ask (wait : (d.ask t).2 = .wait) : t ∈ (d.ask t).1.bell.waiting := by
  rw [ask] at wait ⊢
  split
  · assumption
  · rename_i out
    rw [if_neg out] at wait
    dsimp only at wait ⊢
    cases taken : d.queue.take? with
    | some pair => simp [taken] at wait
    | none =>
        simp only [taken] at wait ⊢
        by_cases closed : d.queue.closed = true
        · simp [closed] at wait
        · rw [if_neg closed] at wait ⊢
          obtain awaited | awaited := (d.bell.goOn t).await_cases t
          · simp [awaited] at wait
          · simp [awaited]

/-- Only at a closed queue nobody is handed a key any more. -/
theorem closed_of_ask (answered : (d.ask t).2 = .noMore) : d.queue.closed = true := by
  rw [ask] at answered
  split at answered
  · cases answered
  · dsimp only at answered
    cases taken : d.queue.take? with
    | some pair => simp [taken] at answered
    | none =>
        simp only [taken] at answered
        split at answered
        · assumption
        · obtain awaited | awaited := (d.bell.goOn t).await_cases t <;> simp [awaited] at answered

end Desk

namespace DelayedPush

/-- A put-off push pushes its key when its time has come, and does nothing to the
keys before and after. -/
theorem act_queue {d : Desk} {t : TaskId} {key : String} {p : DelayedPush} :
    (act d t key p).1.queue =
      match p with
      | .sleeping due => if due ≤ d.schedule.now then (d.queue.push key).1 else d.queue
      | _ => d.queue := by
  cases p with
  | fresh millis => rfl
  | sleeping due =>
      simp only [act]
      split <;> simp
  | pushed => rfl

theorem serves_act (d : Desk) (t : TaskId) (key : String) (p : DelayedPush) :
    d.Serves (act d t key p).1 := by
  cases p with
  | fresh millis => exact .of (Schedule.serves_setTimer _ _ _) rfl rfl
  | sleeping due =>
      simp only [act]
      split
      · exact d.serves_push key
      · exact .refl d
  | pushed => exact .refl d

end DelayedPush

end ResourceWatch
