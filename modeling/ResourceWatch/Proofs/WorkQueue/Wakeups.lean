import ResourceWatch.Proofs.WorkQueue.World

/-!
# Nobody waits while a key waits

At most one ring is kept, however many keys join the queue, and a consumer may take
a key without having been woken for it. So neither the kept ring nor the woken
consumers match the keys one to one. What holds is `Bell.Covers`: while somebody
waits for the bell, no ring is kept, and for each key that waits somebody has been
woken who has not gone on since. Whoever gives up then passes the ring on, and
whoever goes on takes a key or finds none.

Whoever has been woken can go on. So in a world in which nobody can, nobody waits
at a queue with a key in it, nor at a closed one, at which everybody has been woken.
-/

namespace ResourceWatch

namespace Bell

/-- The tasks that wait or have been woken. -/
def called (b : Bell) : List TaskId := b.waiting ++ b.owing

/-- While somebody waits, no ring is kept, and for each of so many keys somebody has
been woken who has not gone on since. -/
structure Covers (b : Bell) (keys : Nat) : Prop where
  /-- Nobody waits twice or is woken twice, and nobody waits who has been woken. -/
  once : b.called.Nodup
  unkept : b.waiting ≠ [] → b.kept = false
  enough : b.waiting ≠ [] → keys ≤ b.owing.length

variable {b : Bell} {keys : Nat} {t u : TaskId}

@[simp] theorem mem_called : u ∈ b.called ↔ u ∈ b.waiting ∨ u ∈ b.owing := List.mem_append

theorem called_ring (b : Bell) : b.ring.1.called.Perm b.called := by
  rw [ring]
  cases waiting : b.waiting with
  | nil => simp [called, waiting]
  | cons t rest =>
      simp only [called, waiting]
      rw [← List.append_assoc, List.cons_append]
      exact List.perm_append_singleton t (rest ++ b.owing)

/-- A ring makes up for one more key. -/
theorem Covers.ring (h : b.Covers keys) : b.ring.1.Covers (keys + 1) := by
  have once : b.ring.1.called.Nodup := (called_ring b).nodup_iff.2 h.once
  cases waiting : b.waiting with
  | nil =>
      rw [Bell.ring, waiting] at once ⊢
      exact ⟨once, by simp, by simp⟩
  | cons t rest =>
      have some : b.waiting ≠ [] := by simp [waiting]
      rw [Bell.ring, waiting] at once ⊢
      refine ⟨once, fun _ => h.unkept some, fun _ => ?_⟩
      simpa using h.enough some

theorem Covers.ringAll (h : b.Covers keys) (keys' : Nat) : b.ringAll.1.Covers keys' :=
  ⟨h.once.sublist (List.sublist_append_right _ _), by simp [Bell.ringAll],
    by simp [Bell.ringAll]⟩

/-- Whoever goes on makes up for one key no more. -/
theorem Covers.goOn (h : b.Covers keys) (t : TaskId) : (b.goOn t).Covers (keys - 1) := by
  refine ⟨h.once.sublist (List.erase_sublist.append_left _), h.unkept, fun some => ?_⟩
  have enough := h.enough some
  simp only [Bell.goOn, List.length_erase]
  split <;> omega

theorem Covers.not_owing_of_goOn (h : b.Covers keys) (t : TaskId) : t ∉ (b.goOn t).owing :=
  (List.nodup_append.1 h.once).2.1.not_mem_erase

/-- Where no key waits, one more may wait. -/
theorem Covers.await (h : b.Covers 0) (out : t ∉ b.called) : (b.await t).1.Covers 0 := by
  rw [Bell.await]
  split
  · exact ⟨h.once, fun _ => rfl, fun _ => Nat.zero_le _⟩
  · rename_i unkept
    refine ⟨?_, fun _ => by simpa using unkept, fun _ => Nat.zero_le _⟩
    have same : (b.waiting ++ [t] ++ b.owing).Perm (t :: b.called) := by
      rw [List.append_assoc]
      exact List.perm_middle
    exact same.nodup_iff.2 (List.nodup_cons.2 ⟨out, h.once⟩)

/-- Whoever gives up leaves as many woken for the keys as there were. -/
theorem Covers.giveUp (h : b.Covers keys) (t : TaskId) : (b.giveUp t).1.Covers keys := by
  rw [Bell.giveUp]
  split
  · rename_i owes
    have left : { b with owing := b.owing.erase t }.Covers (keys - 1) := h.goOn t
    have rung := left.ring
    refine ⟨rung.once, rung.unkept, fun some => ?_⟩
    have := rung.enough some
    omega
  · exact ⟨h.once.sublist (List.erase_sublist.append_right _),
      fun some => h.unkept fun none => some (by simp [none]),
      fun some => h.enough fun none => some (by simp [none])⟩

/-- Whoever gives up is called no more, and nobody else is newly called. -/
theorem Covers.called_giveUp (h : b.Covers keys) :
    u ∈ (b.giveUp t).1.called → u ∈ b.called ∧ u ≠ t := by
  obtain ⟨waits, owes, apart⟩ := List.nodup_append.1 h.once
  rw [Bell.giveUp]
  split
  · rename_i owed
    rw [(called_ring _).mem_iff, mem_called, mem_called]
    rintro (there | there)
    · exact ⟨.inl there, apart u there t owed⟩
    · exact ⟨.inr (List.mem_of_mem_erase there), (owes.mem_erase_iff.1 there).1⟩
  · rename_i free
    rw [mem_called, mem_called]
    rintro (there | there)
    · exact ⟨.inl (List.mem_of_mem_erase there), (waits.mem_erase_iff.1 there).1⟩
    · exact ⟨.inr there, fun same => free (same ▸ there)⟩

end Bell

namespace Desk

/-- Enough are woken for the keys that wait, and nobody waits at a closed queue. -/
structure Rouses (d : Desk) : Prop where
  covers : d.bell.Covers d.queue.queue.length
  /-- Whoever has been woken can go on. -/
  woken : ∀ t ∈ d.bell.owing, t ∈ d.schedule.ready
  shut : d.queue.closed = true → d.bell.waiting = []

variable {d : Desk} {key : String} {t u : TaskId}

theorem rouses_empty : Rouses {} :=
  ⟨⟨by simp [Bell.called], by simp, by simp⟩, by simp, fun _ => rfl⟩

@[simp] theorem ring_bell (d : Desk) : d.ring.bell = d.bell.ring.1 := by
  rw [ring]
  split <;> simp_all [wake]

/-- Whoever a ring wakes can go on. -/
theorem woken_ring (woken : ∀ t ∈ d.bell.owing, t ∈ d.schedule.ready) :
    ∀ t ∈ d.ring.bell.owing, t ∈ d.ring.schedule.ready := by
  intro u owes
  rw [ring, Bell.ring] at owes ⊢
  cases waiting : d.bell.waiting with
  | nil =>
      simp only [waiting] at owes ⊢
      exact woken u owes
  | cons t rest =>
      simp only [waiting, wake, List.mem_append, List.mem_singleton] at owes ⊢
      exact Schedule.mem_wake.2 (owes.imp_left (woken u))

theorem Rouses.ring (h : d.Rouses) {queue : WorkQueue}
    (joined : queue.queue.length = d.queue.queue.length + 1)
    (closed : queue.closed = d.queue.closed) : { d with queue }.ring.Rouses := by
  have serves := serves_ring { d with queue }
  refine ⟨?_, woken_ring h.woken, serves.shut fun shut => h.shut (closed ▸ shut)⟩
  rw [ring_queue, joined, ring_bell]
  exact h.covers.ring

/-- What leaves the keys that wait, the bell and the ready tasks alone keeps
everything. -/
theorem Rouses.of (h : d.Rouses) {d' : Desk} (bell : d'.bell = d.bell)
    (queue : d'.queue.queue = d.queue.queue) (closed : d'.queue.closed = d.queue.closed)
    (keeps : d.schedule.Keeps d'.schedule) : d'.Rouses := by
  refine ⟨?_, fun t owes => keeps t (h.woken t (bell ▸ owes)), fun shut => ?_⟩
  · rw [bell, queue]
    exact h.covers
  · rw [bell]
    exact h.shut (closed ▸ shut)

theorem Rouses.push (h : d.Rouses) (key : String) : (d.push key).Rouses := by
  have closed : (d.queue.push key).1.closed = d.queue.closed := WorkQueue.push_closed
  have waits := d.queue.push_queue key
  rw [Desk.push]
  split <;> rename_i queue pushed <;> rw [pushed] at closed waits
  · exact h.ring (by simpa using congrArg List.length waits) closed
  · exact h.of rfl waits closed (.refl _)
  · exact h.of rfl waits closed (.refl _)

theorem Rouses.pushAll (h : d.Rouses) (keys : List String) : (keys.foldl Desk.push d).Rouses := by
  induction keys generalizing d with
  | nil => exact h
  | cons key keys ih => exact ih (h.push key)

theorem Rouses.finish (h : d.Rouses) (key : String) : (d.finish key).Rouses := by
  have closed : (d.queue.finish key).1.closed = d.queue.closed := WorkQueue.finish_closed
  have waits := d.queue.finish_queue key
  rw [Desk.finish]
  split <;> rename_i queue finished <;> rw [finished] at closed waits
  · exact h.ring (by simpa using congrArg List.length waits) closed
  · exact h.of rfl waits closed (.refl _)

theorem Rouses.close (h : d.Rouses) : d.close.Rouses :=
  ⟨h.covers.ringAll _, fun t owes => d.keeps_close t (h.woken t owes), fun _ => rfl⟩

/-- Whoever asks uses up the ring that woke it, and takes a key if one waits. -/
theorem Rouses.ask (h : d.Rouses) (t : TaskId) : (d.ask t).1.Rouses := by
  rw [Desk.ask]
  split
  · exact h
  · rename_i out
    have went := h.covers.goOn t
    have woken : ∀ u ∈ (d.bell.goOn t).owing, u ∈ d.schedule.ready :=
      fun u owes => h.woken u (List.mem_of_mem_erase owes)
    dsimp only
    cases taken : d.queue.take? with
    | some pair =>
        obtain ⟨key, queue⟩ := pair
        obtain ⟨rest, waits, rfl⟩ := WorkQueue.take?_eq_some.1 taken
        rw [waits] at went
        exact ⟨went, woken, h.shut⟩
    | none =>
        have none : d.queue.queue = [] := WorkQueue.take?_eq_none.1 taken
        rw [none] at went
        dsimp only
        split
        · exact ⟨none ▸ went, woken, h.shut⟩
        · rename_i unclosed
          have uncalled : t ∉ (d.bell.goOn t).called := by
            rw [Bell.mem_called]
            exact not_or.2 ⟨out, h.covers.not_owing_of_goOn t⟩
          have awaits := went.await uncalled
          obtain awaited | awaited := (d.bell.goOn t).await_cases t
          all_goals
            rw [awaited] at awaits ⊢
            exact ⟨none ▸ awaits, woken, fun closed => absurd closed unclosed⟩

/-- Whoever asks is called no more, unless it is told to wait, and nobody else is newly
called. -/
theorem Rouses.called_ask (h : d.Rouses) (called : u ∈ (d.ask t).1.bell.called) :
    (u ∈ d.bell.called ∧ u ≠ t) ∨ (u = t ∧ (d.ask t).2 = .wait) := by
  have went : u ∈ (d.bell.goOn t).called → t ∉ d.bell.waiting → u ∈ d.bell.called ∧ u ≠ t := by
    rw [Bell.mem_called, Bell.mem_called]
    rintro (waits | owes) out
    · exact ⟨.inl waits, fun same => out (same ▸ waits)⟩
    · exact ⟨.inr (List.mem_of_mem_erase owes),
        fun same => h.covers.not_owing_of_goOn t (same ▸ owes)⟩
  rw [Desk.ask] at called ⊢
  split
  · rename_i waits
    rw [if_pos waits] at called
    by_cases same : u = t
    · exact .inr ⟨same, rfl⟩
    · exact .inl ⟨called, same⟩
  · rename_i out
    rw [if_neg out] at called
    dsimp only at called ⊢
    cases taken : d.queue.take? with
    | some pair =>
        simp only [taken] at called
        exact .inl (went called out)
    | none =>
        simp only [taken] at called ⊢
        split at called
        · exact .inl (went called out)
        · rename_i unclosed
          rw [if_neg unclosed]
          obtain awaited | awaited := (d.bell.goOn t).await_cases t <;>
            simp only [awaited] at called ⊢
          · exact .inl (went called out)
          · rw [Bell.mem_called, List.mem_append, List.mem_singleton] at called
            obtain (waits | same) | owes := called
            · exact .inl (went (Bell.mem_called.2 (.inl waits)) out)
            · exact .inr ⟨same, trivial⟩
            · exact .inl (went (Bell.mem_called.2 (.inr owes)) out)

/-- Whoever gives up lets the ring that woke it ring again, or waits no more. -/
theorem giveUp_eq (d : Desk) (t : TaskId) :
    d.giveUp t =
      if t ∈ d.bell.owing then { d with bell := d.bell.goOn t }.ring
      else { d with bell := { d.bell with waiting := d.bell.waiting.erase t } } := by
  by_cases owes : t ∈ d.bell.owing
  · rw [if_pos owes, giveUp, Bell.giveUp, if_pos owes]
    rfl
  · rw [if_neg owes, giveUp, Bell.giveUp, if_neg owes]

@[simp] theorem giveUp_bell (d : Desk) (t : TaskId) :
    (d.giveUp t).bell = (d.bell.giveUp t).1 := by
  rw [giveUp]
  split <;> simp_all [wake]

theorem Rouses.giveUp (h : d.Rouses) (t : TaskId) : (d.giveUp t).Rouses := by
  have covers : (d.giveUp t).bell.Covers (d.giveUp t).queue.queue.length := by
    rw [giveUp_bell, giveUp_queue]
    exact h.covers.giveUp t
  refine ⟨covers, ?_, ?_⟩ <;> rw [giveUp_eq] <;> split
  · exact woken_ring fun u owes => h.woken u (List.mem_of_mem_erase owes)
  · exact h.woken
  · exact (serves_ring _).shut h.shut
  · intro shut
    simp [h.shut shut]

/-- Whoever gives up leaves the others waiting, or makes them ready. -/
theorem waits_giveUp (waits : u ∈ d.bell.waiting) (other : u ≠ t) :
    u ∈ (d.giveUp t).bell.waiting ∨ u ∈ (d.giveUp t).schedule.ready := by
  rw [giveUp_eq]
  split
  · exact (serves_ring _).waits u waits
  · exact .inl ((List.mem_erase_of_ne other).2 waits)

theorem keeps_giveUp (d : Desk) (t : TaskId) : d.schedule.Keeps (d.giveUp t).schedule := by
  rw [giveUp_eq]
  split
  · exact keeps_ring { d with bell := d.bell.goOn t }
  · exact .refl _

/-- The desk goes on to ring for every key that joins the queue, and only those are
woken who waited. -/
structure Rings (d d' : Desk) : Prop where
  serves : d.Serves d'
  rouses : d.Rouses → d'.Rouses
  called : ∀ t ∈ d'.bell.called, t ∈ d.bell.called

variable {d' d'' : Desk}

theorem Rings.refl (d : Desk) : Rings d d := ⟨.refl d, id, fun _ => id⟩

theorem Rings.trans (h : Rings d d') (h' : Rings d' d'') : Rings d d'' :=
  ⟨h.serves.trans h'.serves, h'.rouses ∘ h.rouses, fun t there => h.called t (h'.called t there)⟩

theorem called_ring (there : t ∈ d.ring.bell.called) : t ∈ d.bell.called := by
  rw [ring_bell] at there
  exact d.bell.called_ring.mem_iff.1 there

theorem rings_push (d : Desk) (key : String) : d.Rings (d.push key) := by
  refine ⟨d.serves_push key, fun h => h.push key, fun t there => ?_⟩
  rw [push] at there
  split at there
  · rename_i queue _
    exact called_ring (d := { d with queue }) there
  · exact there
  · exact there

theorem rings_pushAll (d : Desk) (keys : List String) : d.Rings (keys.foldl push d) := by
  induction keys generalizing d with
  | nil => exact .refl d
  | cons key keys ih => exact (d.rings_push key).trans (ih (d.push key))

theorem rings_finish (d : Desk) (key : String) : d.Rings (d.finish key) := by
  refine ⟨d.serves_finish key, fun h => h.finish key, fun t there => ?_⟩
  rw [finish] at there
  split at there
  · rename_i queue _
    exact called_ring (d := { d with queue }) there
  · exact there

theorem rings_close (d : Desk) : d.Rings d.close :=
  ⟨d.serves_close, Rouses.close, fun _ there => List.mem_append_right _ there⟩

end Desk

theorem DelayedPush.rings_act (d : Desk) (t : TaskId) (key : String) (p : DelayedPush) :
    d.Rings (act d t key p).1 := by
  cases p with
  | fresh millis =>
      exact ⟨serves_act d t key (.fresh millis),
        fun h => h.of rfl rfl rfl (Schedule.keeps_setTimer _ _ _), fun _ => id⟩
  | sleeping due =>
      simp only [act]
      split
      · exact d.rings_push key
      · exact .refl d
  | pushed => exact .refl d

namespace QueueWorld

/-- The bell calls consumers that have no answer yet, and every consumer that has none
can go on or waits for the bell. -/
structure Staffed (w : QueueWorld) : Prop where
  rouses : w.desk.Rouses
  asking : ∀ t ∈ w.desk.bell.called, w.tasks[t]? = some .asking
  attended : ∀ t, w.tasks[t]? = some .asking →
    t ∈ w.desk.schedule.ready ∨ t ∈ w.desk.bell.waiting

variable {w : QueueWorld} {t : TaskId}

theorem staffed_empty : Staffed {} := ⟨Desk.rouses_empty, by simp, by simp⟩

theorem Staffed.desk (h : w.Staffed) {d : Desk} (rings : w.desk.Rings d) :
    Staffed { w with desk := d } where
  rouses := rings.rouses h.rouses
  asking t there := h.asking t (rings.called t there)
  attended t asks := (h.attended t asks).elim (fun ready => .inl (rings.serves.keeps t ready))
    fun waits => (rings.serves.waits t waits).symm

/-- A task that the bell does not call may become anything but a consumer without an
answer. -/
theorem Staffed.setTask (h : w.Staffed) (out : t ∉ w.desk.bell.called) {task : Task}
    (final : task ≠ .asking) : (w.setTask t task).Staffed where
  rouses := h.rouses
  asking u there := by
    have other : t ≠ u := fun same => out (same ▸ there)
    simpa [QueueWorld.setTask, List.getElem?_set_ne other] using h.asking u there
  attended u asks := by
    by_cases same : t = u
    · subst same
      simp [QueueWorld.setTask, List.getElem?_set, final] at asks
    · rw [QueueWorld.setTask, List.getElem?_set_ne same] at asks
      exact h.attended u asks

theorem Staffed.rest (h : w.Staffed) (unwoken : t ∉ w.desk.bell.owing)
    (waits : w.tasks[t]? = some .asking → t ∈ w.desk.bell.waiting) :
    Staffed (Cooperative.reschedule w ((Cooperative.schedule w).rest t)) where
  rouses :=
    { covers := h.rouses.covers
      woken := fun u owes => Schedule.mem_rest_of_ne (h.rouses.woken u owes)
        fun same => unwoken (same ▸ owes)
      shut := h.rouses.shut }
  asking := h.asking
  attended u asks := by
    by_cases same : u = t
    · subst same
      exact .inr (waits asks)
    · exact (h.attended u asks).imp_left fun ready => Schedule.mem_rest_of_ne ready same

/-- Whoever asks is told to wait, or the bell calls it no more. -/
theorem Staffed.ask (h : w.Staffed) (asks : w.tasks[t]? = some .asking) :
    Staffed { w with desk := (w.desk.ask t).1 } where
  rouses := h.rouses.ask t
  asking u there := by
    obtain ⟨before, -⟩ | ⟨rfl, -⟩ := h.rouses.called_ask there
    · exact h.asking u before
    · exact asks
  attended u waits :=
    (h.attended u waits).elim (fun ready => .inl ((w.desk.serves_ask t).keeps u ready))
      fun waits => ((w.desk.serves_ask t).waits u waits).symm

theorem Staffed.answer (h : w.Staffed) (asks : w.tasks[t]? = some .asking)
    (told : (w.desk.ask t).2 ≠ .wait) {task : Task} (final : task ≠ .asking) :
    (QueueWorld.setTask { w with desk := (w.desk.ask t).1 } t task).Staffed := by
  refine (h.ask asks).setTask (fun there => ?_) final
  obtain ⟨-, other⟩ | ⟨-, waits⟩ := h.rouses.called_ask there
  · exact other rfl
  · exact told waits

/-- The bell does not call a task that is not a consumer without an answer. -/
theorem Staffed.uncalled (h : w.Staffed) (silent : w.tasks[t]? ≠ some .asking) :
    t ∉ w.desk.bell.owing ∧ (w.tasks[t]? = some .asking → t ∈ w.desk.bell.waiting) :=
  ⟨fun owes => silent (h.asking t (Bell.mem_called.2 (.inr owes))),
    fun asks => absurd asks silent⟩

theorem setTask_ne_asking {task : Task} (final : task ≠ .asking) :
    (w.setTask t task).tasks[t]? ≠ some .asking := by
  intro asks
  simp [QueueWorld.setTask, List.getElem?_set, final] at asks

/-- A task that goes on and then rests has not been woken again, and waits for the bell
if it has no answer. -/
theorem Staffed.act (h : w.Staffed) (t : TaskId) :
    (w.act t).1.Staffed ∧ ((w.act t).2 = .rests → t ∉ (w.act t).1.desk.bell.owing ∧
      ((w.act t).1.tasks[t]? = some .asking → t ∈ (w.act t).1.desk.bell.waiting)) := by
  rw [QueueWorld.act]
  split
  · rename_i asks
    have asked := h.ask asks
    split
    · rename_i desk key told
      have final : Task.answered (some key) ≠ .asking := by simp
      have answered := h.answer asks (by simp [told]) final
      rw [told] at answered
      exact ⟨answered, fun _ => answered.uncalled (setTask_ne_asking final)⟩
    · rename_i desk told
      have final : Task.answered none ≠ .asking := by simp
      have answered := h.answer asks (by simp [told]) final
      rw [told] at answered
      exact ⟨answered, fun _ => answered.uncalled (setTask_ne_asking final)⟩
    · rename_i desk told
      rw [told] at asked
      exact ⟨asked, by simp⟩
    · rename_i desk told
      have waits := Desk.mem_waiting_of_ask (congrArg Prod.snd told)
      rw [told] at asked waits
      have apart := (List.nodup_append.1 asked.rouses.covers.once).2.2
      exact ⟨asked, fun _ => ⟨fun owes => apart t waits t owes rfl, fun _ => waits⟩⟩
  · rename_i key p found
    have acted : (QueueWorld.setTask { w with desk := (p.act w.desk t key).1 } t
        (.delayed key (p.act w.desk t key).2)).Staffed := by
      refine (h.desk (p.rings_act w.desk t key)).setTask (fun there => ?_) (by simp)
      have asks := h.asking t ((p.rings_act w.desk t key).called t there)
      simp [found] at asks
    exact ⟨acted, fun _ => acted.uncalled (setTask_ne_asking (by simp))⟩
  · rename_i others silent
    exact ⟨h, fun _ => h.uncalled fun asks => others asks⟩

theorem Staffed.run (h : w.Staffed) (t : TaskId) : (Cooperative.run w t).Staffed := by
  obtain ⟨acted, rests⟩ := h.act t
  rw [Cooperative.run]
  split
  · rename_i went
    rwa [show w.act t = _ from went] at acted
  · rename_i went
    rw [show w.act t = _ from went] at acted rests
    exact acted.rest (rests rfl).1 (rests rfl).2

theorem Staffed.spawn (h : w.Staffed) (task : Task) : (w.spawn task).Staffed where
  rouses := h.rouses.of rfl rfl rfl (Schedule.keeps_wake _ _)
  asking t there := by
    have asks := h.asking t there
    have known : t < w.tasks.length := (List.getElem?_eq_some_iff.1 asks).1
    simpa [QueueWorld.spawn, List.getElem?_append_left known] using asks
  attended t asks := by
    simp only [QueueWorld.spawn, Desk.wake, Schedule.mem_wake]
    by_cases known : t < w.tasks.length
    · rw [QueueWorld.spawn, List.getElem?_append_left known] at asks
      exact (h.attended t asks).imp_left .inl
    · have last : t < (w.tasks ++ [task]).length := (List.getElem?_eq_some_iff.1 asks).1
      rw [List.length_append, List.length_singleton] at last
      exact .inl (.inr (Nat.le_antisymm (Nat.le_of_lt_succ last) (Nat.le_of_not_lt known)))

/-- A consumer that gives up rests, whether it waited or had been woken. -/
theorem Staffed.abort (h : w.Staffed) (t : TaskId) : (w.abort t).Staffed := by
  rw [QueueWorld.abort]
  split
  · have gone : t ∉ (w.desk.giveUp t).bell.called := by
      rw [Desk.giveUp_bell]
      exact fun there => (h.rouses.covers.called_giveUp there).2 rfl
    have gaveUp : (QueueWorld.setTask { w with desk := w.desk.giveUp t } t .gaveUp).Staffed :=
      { rouses := h.rouses.giveUp t
        asking := by
          intro u there
          have before : u ∈ w.desk.bell.called ∧ u ≠ t := by
            rw [QueueWorld.setTask, Desk.giveUp_bell] at there
            exact h.rouses.covers.called_giveUp there
          simpa [QueueWorld.setTask, List.getElem?_set_ne (Ne.symm before.2)]
            using h.asking u before.1
        attended := by
          intro u asks
          by_cases same : t = u
          · subst same
            simp [QueueWorld.setTask, List.getElem?_set] at asks
          · rw [QueueWorld.setTask, List.getElem?_set_ne same] at asks
            exact (h.attended u asks).elim (fun ready => .inl (Desk.keeps_giveUp _ _ u ready))
              fun waits => (Desk.waits_giveUp waits (Ne.symm same)).symm }
    refine gaveUp.rest (fun owes => gone (Bell.mem_called.2 (.inr owes))) fun asks => ?_
    simp [QueueWorld.setTask, List.getElem?_set] at asks
  · exact h

theorem Staffed.elapse (h : w.Staffed) (time : Nat) :
    Staffed (Cooperative.reschedule w ((Cooperative.schedule w).elapse time)) where
  rouses := h.rouses.of rfl rfl rfl (Schedule.keeps_elapse _ _)
  asking := h.asking
  attended t asks := (h.attended t asks).imp_left fun ready => Schedule.keeps_elapse _ _ t ready

theorem Staffed.apply (h : w.Staffed) (c : Command) : (w.apply c).Staffed := by
  cases c with
  | push key => exact h.desk (w.desk.rings_push key)
  | pushAll keys => exact h.desk (w.desk.rings_pushAll keys)
  | pushAfter key millis =>
      simp only [QueueWorld.apply, QueueWorld.pushAfter]
      split
      · exact h.desk (w.desk.rings_push key)
      · exact h.spawn _
  | ask => exact h.spawn .asking
  | abort consumer =>
      simp only [QueueWorld.apply]
      split
      · exact h.abort _
      · exact h
  | finish key => exact h.desk (w.desk.rings_finish key)
  | close => exact h.desk w.desk.rings_close
  | pass millis => exact h

/-- Everything may be done at any time. A key may also be reported done by somebody to
whom it was not handed. -/
def freeConduct : Conduct QueueWorld Command where
  apply := apply
  allows _ _ := true

variable {past : Past QueueWorld Command}

theorem staffed_of_run (run : freeConduct.Run {} past w) : w.Staffed := by
  induction run with
  | start => exact staffed_empty
  | @next past w h run possible ih =>
      cases h with
      | move t => exact ih.run t
      | elapse time => exact ih.elapse time
      | command c => exact ih.apply c

theorem closed_act (closed : w.desk.queue.closed = true) (t : TaskId) :
    (w.act t).1.desk.queue.closed = true := by
  rw [act]
  split
  · have asked := (w.desk.serves_ask t).closed closed
    split <;> rename_i told <;> rw [told] at asked <;> exact asked
  · rename_i key p _
    exact (p.serves_act w.desk t key).closed closed
  · exact closed

theorem closed_apply (closed : w.desk.queue.closed = true) (c : Command) :
    (w.apply c).desk.queue.closed = true := by
  cases c with
  | push key => exact (w.desk.serves_push key).closed closed
  | pushAll keys => exact (w.desk.rings_pushAll keys).serves.closed closed
  | pushAfter key millis =>
      simp only [apply, pushAfter]
      split
      · exact (w.desk.serves_push key).closed closed
      · exact closed
  | ask => exact closed
  | abort consumer =>
      simp only [apply, abort]
      split
      · split
        · simpa [setTask] using closed
        · exact closed
      · exact closed
  | finish key => exact (w.desk.serves_finish key).closed closed
  | close => rfl
  | pass millis => exact closed

theorem closed_after (closed : w.desk.queue.closed = true) (h : Happening Command) :
    (freeConduct.after w h).desk.queue.closed = true := by
  cases h with
  | move t =>
      have acted := closed_act closed t
      simp only [Conduct.after, Cooperative.run]
      split <;> rename_i went <;> rw [show w.act t = _ from went] at acted <;> exact acted
  | elapse time => exact closed
  | command c => exact closed_apply closed c

theorem closed_of_run (run : freeConduct.Run {} past w) {w₁ : QueueWorld}
    (shut : (w₁, .command .close) ∈ past) : w.desk.queue.closed = true := by
  refine run.since
    (P := fun entry w => entry.2 = .command Command.close → w.desk.queue.closed = true)
    ?_ (fun _ _ ih shut => closed_after (ih shut) _) _ shut rfl
  rintro past w h - - rfl
  rfl

/-- Where nothing can move, no consumer is left without an answer while a key waits, and
none at all once the queue has been closed. So it is however consumers asked, gave up
while they waited or after they had been woken, and were handed keys for which others
had been woken. -/
theorem served_of_idle (run : freeConduct.Run {} past w) (idle : Cooperative.Idle w) :
    (w.desk.queue.queue ≠ [] → ∀ t : TaskId, w.tasks[t]? ≠ some .asking) ∧
    (∀ w₁, (w₁, .command .close) ∈ past → ∀ t : TaskId, w.tasks[t]? ≠ some .asking) := by
  have staffed := staffed_of_run run
  have ready : w.desk.schedule.ready = [] := idle
  have waits : ∀ t : TaskId, w.tasks[t]? = some .asking → t ∈ w.desk.bell.waiting := by
    intro t asks
    simpa [ready] using staffed.attended t asks
  -- whoever is owed a wake-up is ready, and nobody is
  have unowed : w.desk.bell.owing = [] := by
    refine List.eq_nil_iff_forall_not_mem.2 fun t owes => ?_
    simpa [ready] using staffed.rouses.woken t owes
  constructor
  · intro key t asks
    have enough := staffed.rouses.covers.enough (List.ne_nil_of_mem (waits t asks))
    rw [unowed] at enough
    exact key (List.length_eq_zero_iff.1 (Nat.le_zero.1 enough))
  · intro w₁ shut t asks
    have waits := waits t asks
    rw [staffed.rouses.shut (closed_of_run run shut)] at waits
    exact absurd waits (by simp)

/-- Three consumers wait. Two keys wake the first two, the first one gives up, and a
fourth consumer takes a key for which others were woken; a put-off key wakes the third
one again, which had found none. In the end a key is left to nobody, and the queue is
closed. -/
def stolen : List (Happening Command) :=
  [.command .ask, .move 0, .command .ask, .move 1, .command .ask, .move 2,
    .command (.push "a"), .command (.push "b"), .command (.abort 0),
    .command .ask, .move 3, .move 1, .move 2,
    .command (.pushAfter "c" 5), .move 4, .elapse 5, .move 4, .move 2,
    .command .ask, .move 5, .command .ask, .move 6,
    .command (.push "d"), .command (.push "e"), .command (.abort 4), .move 6, .command .close]

def closes : Happening Command → Bool
  | .command .close => true
  | _ => false

theorem closes_iff {x : Happening Command} : closes x = true ↔ x = .command .close := by
  constructor
  · intro is
    unfold closes at is
    split at is
    · rfl
    · cases is
  · rintro rfl
    rfl

theorem served_of_stolen :
    ∃ past w, freeConduct.Run {} past w ∧ Cooperative.Idle w ∧
      w.answers = [some .aborted, some (.key (some "b")), some (.key (some "c")),
        some (.key (some "a")), some .aborted, some (.key (some "d"))] ∧
      (w.desk.queue.queue = ["e"] ∧ ∀ t : TaskId, w.tasks[t]? ≠ some .asking) ∧
      ∃ w₁, (w₁, .command .close) ∈ past ∧ ∀ t : TaskId, w.tasks[t]? ≠ some .asking := by
  have begun : freeConduct.Run {} [] {} := .start
  have run := begun.follow stolen (by decide +kernel)
  have ready : ((freeConduct.follow [] {} stolen).get (by decide +kernel)).2.desk.schedule.ready =
      [] := by
    decide +kernel
  have key : ((freeConduct.follow [] {} stolen).get (by decide +kernel)).2.desk.queue.queue =
      ["e"] := by
    decide +kernel
  have closing : ((freeConduct.follow [] {} stolen).get (by decide +kernel)).1.any
      (fun entry => closes entry.2) = true := by
    decide +kernel
  obtain ⟨⟨w₁, h⟩, there, close⟩ := List.any_eq_true.1 closing
  obtain ⟨waits, shut⟩ := served_of_idle run ready
  obtain rfl := closes_iff.1 close
  exact ⟨_, _, run, ready, by decide +kernel, ⟨key, waits (by simp [key])⟩, w₁, there,
    shut w₁ there⟩

end QueueWorld

end ResourceWatch
