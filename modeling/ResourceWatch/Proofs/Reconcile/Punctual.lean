import ResourceWatch.Proofs.Reconcile.Failures
import ResourceWatch.Proofs.Reconcile.Retries
import ResourceWatch.Proofs.Reconcile.Staffing

/-!
# Retries come once, and on time

The task of a retry sets its timer when it first goes on, and pushes its key when the timer
has made it ready again. Where time passes only when nothing can move, and never past a timer,
the timer is set at the time of the failure, and the key is pushed at the very time for which
it was set.

A push that counts leaves the key dirty until a reconcile of it begins; and as long as there
is a worker, nothing comes to rest before that.
-/

namespace ResourceWatch

namespace Schedule

/-- Whoever was ready still is, and no timer is let go of. -/
structure Retains (s s' : Schedule) : Prop where
  keeps : s.Keeps s'
  timers : s.timers ⊆ s'.timers

variable {s s' s'' : Schedule}

theorem Retains.refl (s : Schedule) : s.Retains s := ⟨.refl s, List.Subset.refl _⟩

theorem Retains.trans (h : s.Retains s') (h' : s'.Retains s'') : s.Retains s'' :=
  ⟨h.keeps.trans h'.keeps, List.Subset.trans h.timers h'.timers⟩

theorem retains_wake (s : Schedule) (t : TaskId) : s.Retains (s.wake t) :=
  ⟨keeps_wake s t, by simp⟩

theorem retains_wakeAll (s : Schedule) (ts : List TaskId) : s.Retains (s.wakeAll ts) :=
  ⟨keeps_wakeAll s ts, by simp⟩

theorem retains_setTimer (s : Schedule) (due : Nat) (t : TaskId) : s.Retains (s.setTimer due t) :=
  ⟨keeps_setTimer s due t, List.subset_append_left ..⟩

theorem mem_timers_elapse {timer : Timer} {time : Nat} (set : timer ∈ s.timers)
    (early : time < timer.due) : timer ∈ (s.elapse time).timers := by
  simpa [elapse] using ⟨set, early⟩

theorem mem_ready_elapse {timer : Timer} {time : Nat} (set : timer ∈ s.timers)
    (late : timer.due ≤ time) : timer.task ∈ (s.elapse time).ready := by
  refine mem_wakeAll.2 (.inr (List.mem_map_of_mem ?_))
  rw [List.mem_mergeSort]
  simpa using ⟨set, late⟩

end Schedule

namespace Desk

theorem retains_ring (d : Desk) : d.schedule.Retains d.ring.schedule := by
  rw [ring]
  split
  · exact Schedule.retains_wake _ _
  · exact .refl _

theorem retains_push (d : Desk) (key : String) : d.schedule.Retains (d.push key).schedule := by
  rw [push]
  split
  · rename_i queue _
    exact retains_ring { d with queue }
  · exact .refl _
  · exact .refl _

theorem retains_finish (d : Desk) (key : String) :
    d.schedule.Retains (d.finish key).schedule := by
  rw [finish]
  split
  · rename_i queue _
    exact retains_ring { d with queue }
  · exact .refl _

end Desk

theorem DelayedPush.retains_act (d : Desk) (t : TaskId) (key : String) (p : DelayedPush) :
    d.schedule.Retains (act d t key p).1.schedule := by
  cases p with
  | fresh millis => exact Schedule.retains_setTimer _ _ _
  | sleeping due =>
      simp only [act]
      split
      · exact d.retains_push key
      · exact .refl _
  | pushed => exact .refl _

namespace Worker

theorem retains_settle (s : Workshop) (key : String) (result : ReconcileResult)
    (fresh : TaskId) :
    s.schedule.Retains (settle s key result fresh).workshop.schedule := by
  let told := s.note (.reconciled key result s.schedule.now)
  have entered : s.schedule.Retains (told.enter key result).1.schedule := by
    obtain ⟨lines, entered, -⟩ := told.enter_eq key result
    rw [entered]
    exact .refl _
  simp only [settle]
  split
  all_goals
    rename_i entering
    rw [entering] at entered
  · exact entered.trans (Desk.retains_finish _ key)
  · rename_i s₁ delay
    exact (entered.trans (Schedule.retains_wake _ fresh)).trans
      (Desk.retains_finish (s₁.toDesk.wake fresh) key)

theorem retains_act (s : Workshop) (t fresh : TaskId) (state : Worker) :
    s.schedule.Retains (state.act s t fresh).workshop.schedule := by
  cases state with
  | stopped => exact .refl _
  | working key result due =>
      simp only [act]
      split
      · exact retains_settle (s.note _) key result fresh
      · exact .refl _
  | asking =>
      simp only [act]
      obtain ⟨key, queue, bell, taken, ask⟩ | ⟨bell, answer, ask, other⟩ := s.toDesk.ask_cases t
      · let s₁ : Workshop := { s with toDesk := { s.toDesk with queue, bell } }
        obtain ⟨lines, reconciler, began, -⟩ := s₁.begin_eq key
        simp only [ask]
        rcases begun : s₁.begin key with ⟨s₂, millis, result⟩
        obtain rfl : s₂ = _ := (congrArg Prod.fst begun).symm.trans began
        dsimp only
        split
        · exact retains_settle
            { s₁ with reconciler, history := s₁.history ++ lines } key result fresh
        · exact Schedule.retains_setTimer _ _ _
      · simp only [ask]
        cases answer with
        | key key => exact absurd rfl (other key)
        | noMore | again | wait => exact .refl _

theorem ready_of_settle {s : Workshop} {key : String} {result : ReconcileResult}
    {fresh : TaskId} (retries : (settle s key result fresh).retry ≠ none) :
    fresh ∈ (settle s key result fresh).workshop.schedule.ready := by
  simp only [settle] at retries ⊢
  split at retries
  · simp at retries
  · exact (Desk.retains_finish _ key).keeps fresh (Schedule.mem_wake.2 (.inr rfl))

/-- A put-off push that comes is ready, and the worker that has brought it goes on. -/
theorem ready_of_retry {s : Workshop} {t fresh : TaskId} {state : Worker}
    (retries : (state.act s t fresh).retry ≠ none) :
    fresh ∈ (state.act s t fresh).workshop.schedule.ready ∧
      (state.act s t fresh).progress = .goesOn := by
  have settles {s : Workshop} {key : String} {result : ReconcileResult}
      (retries : (settle s key result fresh).retry ≠ none) :=
    And.intro (ready_of_settle retries) (settled s key result fresh).progress
  cases state with
  | stopped => simp [act] at retries
  | working key result due =>
      simp only [act] at retries ⊢
      split at retries
      · rename_i late
        simpa only [if_pos late] using settles retries
      · simp at retries
  | asking =>
      simp only [act] at retries ⊢
      rcases asked : s.toDesk.ask t with ⟨desk, answer⟩
      rw [asked] at retries
      cases answer with
      | key key =>
          dsimp only at retries ⊢
          rcases begun : Workshop.begin { s with toDesk := desk } key with ⟨s₂, millis, result⟩
          rw [begun] at retries
          dsimp only at retries ⊢
          split at retries
          · rename_i now
            simpa only [if_pos now] using settles retries
          · simp at retries
      | noMore | again | wait => simp at retries

end Worker

namespace WorkerWorld

open WorkQueue

variable {w : WorkerWorld} {past : Past WorkerWorld Command} {t u : TaskId} {k : String}
  {h : Happening Command} {backoff : Backoff} {reconciler : Reconciler} {cache : Cache}

theorem retains_act (w : WorkerWorld) (t : TaskId) :
    w.shop.schedule.Retains (w.act t).1.shop.schedule := by
  cases found : w.tasks[t]? with
  | none =>
      simp only [act, found]
      exact .refl _
  | some task =>
      cases task with
      | worker state =>
          simp only [act, found]
          exact Worker.retains_act _ _ _ _
      | delayed key push =>
          simp only [act, found]
          exact DelayedPush.retains_act _ _ _ _

theorem retains_apply (w : WorkerWorld) (c : Command) :
    w.shop.schedule.Retains (w.apply c).shop.schedule := by
  cases c with
  | start => exact Schedule.retains_wake _ _
  | push key => exact w.shop.toDesk.retains_push key
  | pushAfter key millis =>
      simp only [apply]
      split
      · exact w.shop.toDesk.retains_push key
      · exact Schedule.retains_wake _ _
  | close => exact Schedule.retains_wakeAll _ _
  | pass millis => exact .refl _

/-- Whoever goes on lets go of no timer, and leaves the others ready. -/
theorem retains_run (w : WorkerWorld) (t : TaskId) :
    w.shop.schedule.timers ⊆ (Cooperative.run w t).shop.schedule.timers ∧
      ∀ u ∈ w.shop.schedule.ready, u ≠ t → u ∈ (Cooperative.run w t).shop.schedule.ready := by
  have acts := w.retains_act t
  rw [Cooperative.run]
  split
  · rename_i went
    rw [show w.act t = _ from went] at acts
    exact ⟨acts.timers, fun u ready _ => acts.keeps u ready⟩
  · rename_i went
    rw [show w.act t = _ from went] at acts
    exact ⟨acts.timers, fun u ready other => Schedule.mem_rest_of_ne (acts.keeps u ready) other⟩

/-- A put-off push that goes on does its part, and rests. -/
theorem run_delayed {push : DelayedPush} (found : w.tasks[t]? = some (.delayed k push)) :
    (Cooperative.run w t).tasks = w.tasks.set t (.delayed k (push.act w.shop.toDesk t k).2) ∧
      (Cooperative.run w t).shop.schedule =
        (push.act w.shop.toDesk t k).1.schedule.rest t := by
  rw [Cooperative.run]
  simp only [Cooperative.act, act, found]
  exact ⟨rfl, rfl⟩

section Proceeds

/-! ### What becomes of a put-off push -/

/-- The key that a task pushes when something happens to a world. -/
def pushesBy (u : TaskId) : WorkerWorld × Happening Command → List String
  | (w, .move t) => if t = u then w.fires u else []
  | _ => []

/-- What becomes of a put-off push of a key, and what it pushes, when something happens. -/
inductive Proceeds (w : WorkerWorld) (u : TaskId) (k : String) (x : Happening Command) :
    DelayedPush → DelayedPush → List String → Prop where
  /-- It does not go on. -/
  | stays (p : DelayedPush) (other : x ≠ .move u) : Proceeds w u k x p p []
  /-- It sets its timer. -/
  | sleeps (millis : Nat) (moves : x = .move u) : Proceeds w u k x (.fresh millis)
      (.sleeping (w.shop.schedule.wakingTime millis)) []
  /-- Its time has not come. -/
  | sleepsOn (due : Nat) (moves : x = .move u) (early : w.shop.schedule.now < due) :
      Proceeds w u k x (.sleeping due) (.sleeping due) []
  /-- It pushes its key. -/
  | pushes (due : Nat) (moves : x = .move u) (late : due ≤ w.shop.schedule.now) :
      Proceeds w u k x (.sleeping due) .pushed [k]
  /-- It has pushed its key. -/
  | rests (moves : x = .move u) : Proceeds w u k x .pushed .pushed []

theorem proceeds_after {p : DelayedPush} (found : w.tasks[u]? = some (.delayed k p))
    (x : Happening Command) : ∃ p', (conduct.after w x).tasks[u]? = some (.delayed k p') ∧
      Proceeds w u k x p p' (pushesBy u (w, x)) := by
  have known := (List.getElem?_eq_some_iff.1 found).1
  cases x with
  | elapse time => exact ⟨p, found, .stays p (by simp)⟩
  | command c =>
      refine ⟨p, ?_, .stays p (by simp)⟩
      show (w.apply c).tasks[u]? = _
      rw [apply_tasks, List.getElem?_append_left known, found]
  | move t =>
      by_cases same : t = u
      · subst same
        have becomes : (Cooperative.run w t).tasks[t]? =
            some (.delayed k (p.act w.shop.toDesk t k).2) := by
          rw [(run_delayed found).1, List.getElem?_set_self known]
        refine ⟨_, becomes, ?_⟩
        cases p with
        | fresh millis => simpa [pushesBy, fires, found, DelayedPush.act] using
            Proceeds.sleeps (w := w) (k := k) millis rfl
        | pushed => simpa [pushesBy, fires, found, DelayedPush.act] using
            Proceeds.rests (w := w) (k := k) rfl
        | sleeping due =>
            by_cases late : due ≤ w.shop.schedule.now
            · simpa [pushesBy, fires, found, DelayedPush.act, late] using
                Proceeds.pushes (w := w) (k := k) due rfl late
            · simpa [pushesBy, fires, found, DelayedPush.act, late] using
                Proceeds.sleepsOn (w := w) (k := k) due rfl (Nat.not_le.1 late)
      · refine ⟨p, (turn_other (w.turn_run t).1 same known).trans found, ?_⟩
        simpa [pushesBy, same] using
          Proceeds.stays (w := w) (k := k) (u := u) (x := .move t) p (by simpa using same)

end Proceeds

section Punctual

/-! ### Being on time -/

/-- Time passes only when nothing can move, and not past a timer. -/
def Timely (w : WorkerWorld) : Happening Command → Prop
  | .elapse time => Cooperative.Idle w ∧ ∀ timer ∈ w.shop.schedule.timers, time ≤ timer.due
  | _ => True

/-- A put-off push is on its way to push at a time. -/
inductive Punctual (w : WorkerWorld) (u : TaskId) (due : Nat) : DelayedPush → Prop where
  /-- It can go on, and will set its timer for then. -/
  | fresh {millis : Nat} (positive : 0 < millis) (ready : u ∈ w.shop.schedule.ready)
      (timed : w.shop.schedule.wakingTime millis = due) : Punctual w u due (.fresh millis)
  /-- Its timer is set. -/
  | armed (timer : ⟨due, u⟩ ∈ w.shop.schedule.timers) (early : w.shop.schedule.now < due) :
      Punctual w u due (.sleeping due)
  /-- Its timer has made it ready. -/
  | woken (ready : u ∈ w.shop.schedule.ready) (now : w.shop.schedule.now = due) :
      Punctual w u due (.sleeping due)
  /-- It has pushed its key. -/
  | pushed (late : due ≤ w.shop.schedule.now) : Punctual w u due .pushed

instance (w : WorkerWorld) : (h : Happening Command) → Decidable (w.Timely h)
  | .elapse time => inferInstanceAs (Decidable (w.shop.schedule.ready = [] ∧
      ∀ timer ∈ w.shop.schedule.timers, time ≤ timer.due))
  | .move _ | .command _ => .isTrue trivial

variable {p p' : DelayedPush} {due : Nat} {x : Happening Command} {keys : List String}

theorem Punctual.elapse (h : Punctual w u due p) {time : Nat} (later : w.shop.schedule.now ≤ time)
    (timely : w.Timely (.elapse time)) : Punctual (conduct.after w (.elapse time)) u due p := by
  obtain ⟨idle, early⟩ := timely
  have ready : w.shop.schedule.ready = [] := idle
  have now : (conduct.after w (.elapse time)).shop.schedule.now = time :=
    Schedule.elapse_now _ time
  cases h with
  | fresh _ ready' | woken ready' => simp [ready] at ready'
  | armed timer _ =>
      obtain before | here := Nat.lt_or_eq_of_le (early _ timer)
      · exact .armed (Schedule.mem_timers_elapse timer before) (by rw [now]; exact before)
      · exact .woken (Schedule.mem_ready_elapse timer (Nat.le_of_eq here.symm)) (now.trans here)
  | pushed late => exact .pushed (by rw [now]; exact Nat.le_trans late later)

/-- Whatever happens to others leaves a put-off push on its way. -/
theorem Punctual.aside (h : Punctual w u due p) {w' : WorkerWorld}
    (ready : u ∈ w.shop.schedule.ready → u ∈ w'.shop.schedule.ready)
    (timers : w.shop.schedule.timers ⊆ w'.shop.schedule.timers)
    (now : w'.shop.schedule.now = w.shop.schedule.now) : Punctual w' u due p := by
  cases h with
  | fresh positive here timed =>
      exact .fresh positive (ready here) (by simpa [Schedule.wakingTime, now] using timed)
  | armed timer early => exact .armed (timers timer) (now ▸ early)
  | woken here time => exact .woken (ready here) (now.trans time)
  | pushed late => exact .pushed (now ▸ late)

/-- A put-off push that is on its way stays so, and pushes at its time. -/
theorem Punctual.after (h : Punctual w u due p) (possible : conduct.Possible past w x)
    (timely : w.Timely x) (found : w.tasks[u]? = some (.delayed k p))
    (proceeds : Proceeds w u k x p p' keys) :
    Punctual (conduct.after w x) u due p' ∧ (keys ≠ [] → w.shop.schedule.now = due) := by
  have now (moves : x = .move u) :
      (conduct.after w x).shop.schedule.now = w.shop.schedule.now := by
    subst moves
    exact (w.turn_run u).2.now
  cases proceeds with
  | stays _ other =>
      refine ⟨?_, by simp⟩
      cases x with
      | elapse time => exact h.elapse possible timely
      | command c =>
          have retains := w.retains_apply c
          exact h.aside (retains.keeps u) retains.timers (w.goes_command c).1.now
      | move t =>
          have different : u ≠ t := fun same => other (same ▸ rfl)
          exact h.aside (fun ready => (w.retains_run t).2 u ready different) (w.retains_run t).1
            (w.turn_run t).2.now
  | sleeps millis moves =>
      subst moves
      refine ⟨?_, by simp⟩
      cases h with
      | fresh positive ready timed =>
          subst timed
          refine .armed ?_ ?_
          · show _ ∈ (Cooperative.run w u).shop.schedule.timers
            rw [(run_delayed found).2]
            simp [DelayedPush.act, Schedule.rest, Schedule.setTimer]
          · rw [now rfl]
            have some : 0 < min millis Schedule.longestSleep :=
              Nat.lt_min.2 ⟨positive, by decide⟩
            exact Nat.lt_add_of_pos_right some
  | sleepsOn due' moves early =>
      subst moves
      refine ⟨?_, by simp⟩
      cases h with
      | armed timer _ => exact .armed ((w.retains_run u).1 timer) (now rfl ▸ early)
      | woken ready time => omega
  | pushes due' moves late =>
      cases h with
      | armed timer early => omega
      | woken ready time => exact ⟨.pushed (now moves ▸ late), fun _ => time⟩
  | rests moves =>
      cases h with
      | pushed late => exact ⟨.pushed (now moves ▸ late), by simp⟩

end Punctual

section Fate

/-! ### What becomes of a retry -/

variable {v : WorkerWorld} {earlier since : Past WorkerWorld Command} {millis : Nat}

theorem getElem?_of_recruits {task : Task} (comes : w.recruits h = [task]) :
    (conduct.after w h).tasks[w.tasks.length]? = some task := by
  have first : (w.recruits h)[0]? = some task := by rw [comes]; rfl
  simpa [recruits] using first

/-- A put-off push that comes is ready, and no time has passed. -/
theorem ready_of_recruits (comes : w.recruits h = [.delayed k (.fresh millis)]) :
    w.tasks.length ∈ (conduct.after w h).shop.schedule.ready ∧
      (conduct.after w h).shop.schedule.now = w.shop.schedule.now := by
  cases h with
  | elapse time => simp [recruits, Conduct.after, Cooperative.reschedule] at comes
  | command c =>
      refine ⟨?_, (w.goes_command c).1.now⟩
      change (w.apply c).tasks.drop _ = _ at comes
      rw [apply_tasks, List.drop_left] at comes
      show _ ∈ (w.apply c).shop.schedule.ready
      cases c with
      | pushAfter key millis =>
          by_cases none : millis = 0
          · simp [brings, none] at comes
          · simp only [apply, if_neg none]
            exact Schedule.mem_wake.2 (.inr rfl)
      | start | push | close | pass => simp [brings] at comes
  | move t =>
      refine ⟨?_, (w.turn_run t).2.now⟩
      obtain ⟨schedule, -, same⟩ := w.run_eq t
      have brought : (w.act t).1.tasks.drop w.tasks.length = [.delayed k (.fresh millis)] := by
        rw [← comes, recruits, Conduct.after, same]
        rfl
      have none_new (task : Task) : (w.tasks.set t task).drop w.tasks.length = [] :=
        List.drop_eq_nil_of_le (by simp)
      cases found : w.tasks[t]? with
      | none => simp [act, found] at brought
      | some task =>
          cases task with
          | delayed key push => simp [act, found, setTask, none_new] at brought
          | worker state =>
              have retries : (state.act w.shop t w.tasks.length).retry ≠ none := by
                intro none
                simp [act, found, none, none_new] at brought
              obtain ⟨ready, goes_on⟩ := Worker.ready_of_retry retries
              show _ ∈ (Cooperative.run w t).shop.schedule.ready
              simpa only [Cooperative.run, Cooperative.act, act, found, goes_on] using ready

/-- A retry pushes its key once, and only then has pushed it. -/
theorem pushed_since (run : conduct.Run (start backoff reconciler cache) past w) :
    ∀ earlier v h since, past = earlier ++ (v, h) :: since →
      v.recruits h = [.delayed k (.fresh millis)] →
      ∃ p, w.tasks[v.tasks.length]? = some (.delayed k p) ∧
        since.flatMap (pushesBy v.tasks.length) = if p = .pushed then [k] else [] := by
  induction run with
  | start => simp
  | @next past w x run possible ih =>
      intro earlier v h since split comes
      obtain ⟨rfl, same, rfl⟩ | ⟨rest, rfl, rfl⟩ := append_singleton_eq_append_cons.1 split
      · cases same
        exact ⟨_, getElem?_of_recruits comes, by simp⟩
      · obtain ⟨p, found, pushed⟩ := ih earlier v h rest rfl comes
        obtain ⟨p', found', proceeds⟩ := proceeds_after found x
        refine ⟨p', found', ?_⟩
        rw [List.flatMap_append, pushed, List.flatMap_singleton]
        generalize pushesBy v.tasks.length (w, x) = keys at proceeds
        cases proceeds with
        | stays => simp
        | sleeps | sleepsOn | pushes | rests => simp

/-- Where time passes only when nothing can move and not past a timer, a retry is on its way to
push its key at its time, and pushes it then. -/
theorem punctual_since (run : conduct.Run (start backoff reconciler cache) past w) :
    ∀ earlier v h since, past = earlier ++ (v, h) :: since →
      v.recruits h = [.delayed k (.fresh millis)] → 0 < millis →
      (∀ e ∈ since, e.1.Timely e.2) →
      (∃ p, w.tasks[v.tasks.length]? = some (.delayed k p) ∧
        Punctual w v.tasks.length (v.shop.schedule.wakingTime millis) p) ∧
      ∀ e ∈ since, pushesBy v.tasks.length e ≠ [] →
        e.1.shop.schedule.now = v.shop.schedule.wakingTime millis := by
  induction run with
  | start => simp
  | @next past w x run possible ih =>
      intro earlier v h since split comes positive timely
      obtain ⟨rfl, same, rfl⟩ | ⟨rest, rfl, rfl⟩ := append_singleton_eq_append_cons.1 split
      · cases same
        obtain ⟨ready, now⟩ := ready_of_recruits comes
        refine ⟨⟨_, getElem?_of_recruits comes, .fresh positive ready ?_⟩, by simp⟩
        rw [Schedule.wakingTime, now]
        rfl
      · have before := ih earlier v h rest rfl comes positive fun e member =>
          timely e (List.mem_append_left _ member)
        obtain ⟨⟨p, found, punctual⟩, exactly⟩ := before
        obtain ⟨p', found', proceeds⟩ := proceeds_after found x
        obtain ⟨still, now⟩ := punctual.after possible (timely (w, x) (by simp)) found proceeds
        refine ⟨⟨p', found', still⟩, fun e member pushes => ?_⟩
        obtain early | last := List.mem_append.1 member
        · exact exactly e early pushes
        · cases List.mem_singleton.1 last
          exact now pushes

theorem of_mem_pushesBy {e : WorkerWorld × Happening Command} (pushes : k ∈ pushesBy u e) :
    e.2 = .move u ∧ k ∈ e.1.fires u := by
  obtain ⟨v, x⟩ := e
  cases x with
  | move t =>
      by_cases same : t = u
      · subst same
        simpa [pushesBy] using pushes
      · simp [pushesBy, same] at pushes
  | elapse | command => simp [pushesBy] at pushes

theorem mem_pushes_of_pushesBy {e : WorkerWorld × Happening Command}
    (pushes : k ∈ pushesBy u e) : k ∈ e.1.pushes e.2 := by
  obtain ⟨moves, fires⟩ := of_mem_pushesBy pushes
  rw [moves]
  exact fires

/-- A key that is pushed while the queue is open is queued, or deferred until it is done. -/
theorem placed_of_pushes (run : conduct.Run (start backoff reconciler cache) past w)
    (possible : conduct.Possible past w h) (pushed : k ∈ w.pushes h)
    (unclosed : w.shop.queue.closed = false) :
    k ∈ (conduct.after w h).shop.queue.queue ∨
      k ∈ (conduct.after w h).shop.queue.inFlight ∧
        k ∈ (conduct.after w h).shop.queue.dirty := by
  have explained := (sound_of_run (run.next possible)).story.explained
  have dirty := ((sound_of_run run).mem_dirty_after h).2 (.inr ⟨pushed, unclosed⟩)
  exact (explained.placed k dirty).imp_right (⟨·, dirty⟩)

/-- A key that was pushed while the queue was open is dirty, or a reconcile of it has begun
since. -/
theorem begins_since (run : conduct.Run (start backoff reconciler cache) past w) :
    ∀ earlier v h since, past = earlier ++ (v, h) :: since → k ∈ v.pushes h →
      v.shop.queue.closed = false →
      k ∈ w.shop.queue.dirty ∨ ∃ e ∈ since, k ∈ e.1.begins e.2 := by
  induction run with
  | start => simp
  | @next past w x run possible ih =>
      intro earlier v h since split pushed unclosed
      have dirty_after := (sound_of_run run).mem_dirty_after (k := k) x
      obtain ⟨rfl, same, rfl⟩ | ⟨rest, rfl, rfl⟩ := append_singleton_eq_append_cons.1 split
      · cases same
        exact .inl (dirty_after.2 (.inr ⟨pushed, unclosed⟩))
      · obtain dirty | ⟨e, member, begun⟩ := ih earlier v h rest rfl pushed unclosed
        · by_cases begun : k ∈ w.begins x
          · exact .inr ⟨(w, x), by simp, begun⟩
          · exact .inl (dirty_after.2 (.inl ⟨dirty, begun⟩))
        · exact .inr ⟨e, List.mem_append_left _ member, begun⟩

theorem worker_after {state : Worker} (found : w.tasks[t]? = some (.worker state))
    (h : Happening Command) :
    ∃ state', (conduct.after w h).tasks[t]? = some (.worker state') := by
  have known := (List.getElem?_eq_some_iff.1 found).1
  cases h with
  | elapse time => exact ⟨state, found⟩
  | command c =>
      refine ⟨state, ?_⟩
      show (w.apply c).tasks[t]? = _
      rw [apply_tasks, List.getElem?_append_left known, found]
  | move u =>
      show ∃ state', (Cooperative.run w u).tasks[t]? = _
      have turn := (w.turn_run u).1
      by_cases here : u = t
      · subst here
        cases turn with
        | rests _ tasks_eq => exact ⟨state, tasks_eq ▸ found⟩
        | sleeps _ _ fresh => simp [found] at fresh
        | fires _ _ sleeping => simp [found] at sleeping
        | stops _ _ tasks_eq | takes _ _ _ _ _ tasks_eq =>
            rw [tasks_eq]
            exact ⟨_, List.getElem?_set_self known⟩
        | concludes _ _ _ _ _ tasks_eq =>
            refine ⟨.asking, ?_⟩
            rw [tasks_eq, List.getElem?_append_left (by simpa using known)]
            exact List.getElem?_set_self known
      · exact ⟨state, (turn_other turn here known).trans found⟩

theorem worker_of_results (run : conduct.Run (start backoff reconciler cache) past w) :
    ∀ e ∈ past, e.1.results e.2 ≠ [] →
      ∃ (t : TaskId) (state : Worker), w.tasks[t]? = some (.worker state) := by
  refine run.since (P := fun e w => e.1.results e.2 ≠ [] →
      ∃ (t : TaskId) (state : Worker), w.tasks[t]? = some (.worker state))
    (fun {past w h} run possible told => ?_) fun run possible works told => ?_
  · obtain ⟨t, state, found⟩ : ∃ (t : TaskId) (state : Worker),
        w.tasks[t]? = some (.worker state) := by
      cases h with
      | elapse time => simp [results, news_elapse, History.results] at told
      | command c =>
          rw [results, (w.goes_command c).2.results] at told
          exact absurd rfl told
      | move t =>
          cases (w.turn_run t).1 with
          | rests _ _ _ tells | stops _ _ _ _ tells | sleeps _ _ _ _ _ tells
          | fires _ _ _ _ _ _ tells | takes _ _ _ _ _ _ tells =>
              rw [results, tells.results] at told
              exact absurd rfl told
          | concludes _ _ _ _ holds =>
              cases holds with
              | taken asking => exact ⟨t, _, asking⟩
              | worked working => exact ⟨t, _, working⟩
    exact ⟨t, worker_after found h⟩
  · obtain ⟨t, state, found⟩ := works told
    exact ⟨t, worker_after found _⟩

end Fate

/-- What a task that retries a key at a time does later. -/
structure Retries (k : String) (u : TaskId) (due : Nat) (since : Past WorkerWorld Command)
    (w : WorkerWorld) : Prop where
  /-- It pushes its key once at most. -/
  once : since.flatMap (pushesBy u) = [] ∨ since.flatMap (pushesBy u) = [k]
  /-- It does not push it before its time. -/
  early : ∀ e ∈ since, pushesBy u e ≠ [] → due ≤ e.1.shop.schedule.now
  /-- Where time passes only when nothing can move and not past a timer, it pushes its key at
  its time, and not only if that has not come. -/
  onTime : (∀ e ∈ since, e.1.Timely e.2) →
    (∀ e ∈ since, pushesBy u e ≠ [] → e.1.shop.schedule.now = due) ∧
    (Cooperative.Idle w → (since.flatMap (pushesBy u) = [k] ↔ due ≤ w.shop.schedule.now))
  /-- If it pushes the key while the queue is open, the key is queued, or deferred until it is
  done. It is dirty until a reconcile of it begins, and nothing comes to rest before that,
  unless a key is still in flight. -/
  again : ∀ before e later, since = before ++ e :: later → k ∈ pushesBy u e →
    e.1.shop.queue.closed = false →
    (k ∈ (conduct.after e.1 e.2).shop.queue.queue ∨
      k ∈ (conduct.after e.1 e.2).shop.queue.inFlight ∧
        k ∈ (conduct.after e.1 e.2).shop.queue.dirty) ∧
    (k ∈ w.shop.queue.dirty ∨ ∃ e' ∈ later, k ∈ e'.1.begins e'.2) ∧
    (Cooperative.Idle w → w.shop.queue.inFlight = [] → ∃ e' ∈ later, k ∈ e'.1.begins e'.2)

section Assembly

variable {v : WorkerWorld} {earlier since : Past WorkerWorld Command} {d : Duration}

/-- A retry does not push its key before its time. -/
theorem early_since
    (run : conduct.Run (start backoff reconciler cache) (earlier ++ (v, h) :: since) w)
    (announced : (k, d) ∈ v.announces h) :
    ∀ e ∈ since, pushesBy v.tasks.length e ≠ [] →
      v.shop.schedule.wakingTime d.millisUp ≤ e.1.shop.schedule.now := by
  rintro ⟨v', x⟩ member pushes
  obtain ⟨before, later, rfl⟩ := List.append_of_mem member
  have run_then := run.splitSince.1
  obtain ⟨k', pushed⟩ := List.exists_mem_of_ne_nil _ pushes
  obtain ⟨due, found, late⟩ := of_mem_fires (of_mem_pushesBy pushed).2
  obtain ⟨p, found', timed⟩ := (keepsTime_of_run run_then (v, h) (by simp)).due k d announced
  cases found.symm.trans found'
  cases timed with
  | sleeping ontime => exact Nat.le_trans ontime late

/-- A retry that is announced, and comes with its delay, does its part. -/
theorem retries_since
    (run : conduct.Run (start backoff reconciler cache) (earlier ++ (v, h) :: since) w)
    (announced : (k, d) ∈ v.announces h) (comes : v.recruits h = [retryTask k d])
    (positive : 0 < d.millisUp) :
    Retries k v.tasks.length (v.shop.schedule.wakingTime d.millisUp) since w where
  once := by
    obtain ⟨p, -, pushed⟩ := pushed_since run earlier v h since rfl comes
    rw [pushed]
    split
    · exact .inr rfl
    · exact .inl rfl
  early := early_since run announced
  onTime timely := by
    obtain ⟨⟨p, found, punctual⟩, exactly⟩ :=
      punctual_since run earlier v h since rfl comes positive timely
    refine ⟨exactly, fun idle => ?_⟩
    have ready : w.shop.schedule.ready = [] := idle
    obtain ⟨p', found', pushed⟩ := pushed_since run earlier v h since rfl comes
    cases found.symm.trans found'
    cases punctual with
    | fresh _ here | woken here => simp [ready] at here
    | armed _ early => simpa [pushed] using early
    | pushed late => simpa [pushed] using late
  again := by
    rintro before ⟨v', x⟩ later rfl pushes unclosed
    have pushed := mem_pushes_of_pushesBy pushes
    obtain ⟨run_then, possible⟩ := run.splitSince
    have waits := begins_since run (earlier ++ (v, h) :: before) v' x later (by simp) pushed
      unclosed
    refine ⟨placed_of_pushes run_then possible pushed unclosed, waits, fun idle free => ?_⟩
    obtain ⟨⟨result, told⟩, -⟩ := of_announces announced
    obtain ⟨t, state, works⟩ :=
      worker_of_results run (v, h) (by simp) (List.ne_nil_of_mem told)
    have nothing := (empty_of_idle run idle free works).2
    exact waits.resolve_left (by simp [nothing])

end Assembly

/-- The ledger counts for each key the failures in a row that may pass, whatever becomes of
other keys. A result reports its key done, so that it can be handed out again. If it is such a
failure, one task comes that pushes the key once, at the time that the failures in a row ask
for, counted from the failure and cut at the longest sleep; after any other result none
comes. -/
theorem retries_of_run {least most : Duration}
    (run : conduct.Run (start (.ofDurations least most) reconciler cache) past w) :
    (∀ k, w.shop.ledger.count k = min (streak k w.shop.history.results) maxFailures) ∧
    ∀ earlier v h since k result, past = earlier ++ (v, h) :: since →
      (k, result) ∈ v.results h →
      k ∉ (conduct.after v h).shop.queue.inFlight ∧
      (k ∈ (conduct.after v h).shop.queue.dirty → k ∈ (conduct.after v h).shop.queue.queue) ∧
      (retryable? result = none → v.recruits h = []) ∧
      (retryable? result ≠ none → ∃ millis,
        millis = ((Backoff.ofDurations least most).delay
          (min (streak k (conduct.after v h).shop.history.results) maxFailures)).millisUp ∧
        v.recruits h = [.delayed k (.fresh millis)] ∧
        Retries k v.tasks.length (v.shop.schedule.now + min millis Schedule.longestSleep)
          since w) := by
  refine ⟨count_of_run run, ?_⟩
  rintro earlier v h since k result rfl told
  obtain ⟨run_then, possible⟩ := run.split rfl
  obtain ⟨alone, free, announces, recruits⟩ := of_results run_then told
  have placed := (sound_of_run (run_then.next possible)).story.explained.placed k
  refine ⟨free, fun dirty => (placed dirty).resolve_right free, ?_⟩
  rw [retry?_of_run run_then alone] at announces recruits
  cases again : retryable? result with
  | none => exact ⟨fun _ => by simpa [again] using recruits, by simp⟩
  | some error =>
      refine ⟨by simp, fun _ => ?_⟩
      generalize asked : (Backoff.ofDurations least most).delay
        (min (streak k (conduct.after v h).shop.history.results) maxFailures) = delay
      have comes : v.recruits h = [retryTask k delay] := by
        simpa [again, asked] using recruits
      have announced : (k, delay) ∈ v.announces h := by
        simp [announces, again, asked]
      have positive : 0 < delay.millisUp := asked ▸ Backoff.millisUp_delay_pos least most _
      exact ⟨_, rfl, comes, retries_since run announced comes positive⟩

/-- A shop that waits so many seconds before it tries again a key that fails at first. -/
def wary (seconds : Nat) : WorkerWorld :=
  start (.ofDurations (.ofSeconds seconds) (.ofSeconds seconds))
    (.scripted [("k", [⟨0, .task⟩, ⟨0, .ok⟩])]) {}

/-- The key is pushed and fails, and its retry goes on after so many seconds. -/
def retrying (seconds : Nat) : List (Happening Command) :=
  [.command .start, .command (.push "k"), .move 0, .move 0, .move 0, .move 1,
    .elapse (1000 * seconds), .move 1, .move 0]

theorem retries_of_wary :
    ∃ earlier v h since w, conduct.Run (wary 1) (earlier ++ (v, h) :: since) w ∧
      v.results h = [("k", .error (.task .injected))] ∧
      v.recruits h = [.delayed "k" (.fresh 1000)] ∧
      (∀ e ∈ since, e.1.Timely e.2) ∧ since.flatMap (pushesBy v.tasks.length) = ["k"] ∧
      ∀ e ∈ since, pushesBy v.tasks.length e ≠ [] →
        e.1.shop.schedule.now = v.shop.schedule.now + 1000 := by
  have begun : conduct.Run (wary 1) [] (wary 1) := .start
  have run := (begun.follow (retrying 1) (by decide +kernel)).focus
    (show 2 < ((conduct.follow [] (wary 1) (retrying 1)).get _).1.length by decide +kernel)
  obtain ⟨millis, asked, comes, does⟩ := ((retries_of_run run).2 _ _ _ _ "k"
    (.error (.task .injected)) rfl (by decide +kernel)).2.2.2 (by simp [retryable?])
  obtain rfl : millis = 1000 := asked.trans (by decide +kernel)
  exact ⟨_, _, _, _, _, run, by decide +kernel, comes, by decide +kernel, by decide +kernel,
    (does.onTime (by decide +kernel)).1⟩

/-- A delay that is longer than the longest sleep is cut short: the retry of a first failure
pushes its key before the delay that one failure asks for is over. -/
theorem pushes_of_wary :
    ∃ earlier v h since w,
      conduct.Run (wary 946080001) (earlier ++ (v, h) :: since) w ∧
      v.results h = [("k", .error (.task .injected))] ∧
      streak "k" (conduct.after v h).shop.history.results = 1 ∧
      (∀ e ∈ since, e.1.Timely e.2) ∧
      ∃ e ∈ since, pushesBy v.tasks.length e = ["k"] ∧ e.1.shop.schedule.now <
        v.shop.schedule.now + (v.shop.ledger.backoff.delay 1).millisUp := by
  have begun : conduct.Run (wary 946080001) [] (wary 946080001) := .start
  have run := (begun.follow (retrying 946080000) (by decide +kernel)).focus
    (show 2 < ((conduct.follow [] (wary 946080001) (retrying 946080000)).get _).1.length by
      decide +kernel)
  exact ⟨_, _, _, _, _, run, by decide +kernel, by decide +kernel, by decide +kernel,
    by decide +kernel⟩

end WorkerWorld

end ResourceWatch
