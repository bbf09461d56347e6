import ResourceWatch.Proofs.WorkQueue.Desk
import ResourceWatch.Proofs.WorkQueue.Story
import ResourceWatch.WorkQueue.World

/-!
# Runs of the work queue

The conduct of the queue's world lets consumers ask and give up, keys be pushed
at once or later, and the queue be closed, at any time and in any number. A key
is reported done only by somebody who was handed it, once for each time.

Every run tells a story of its queue, whose deeds are read off what happens: a
push from outside or of a task whose time has come, and a key that a consumer is
told when it asks. So what a story says of its queue holds at every moment of
every run.
-/

namespace ResourceWatch.QueueWorld

open WorkQueue

/-- What is done to the queue when something happens to its world. -/
def deeds (w : QueueWorld) : Happening Command → List Deed
  | .move t =>
    match w.tasks[t]? with
    | some .asking =>
      match (w.desk.ask t).2 with
      | .key key => [.handed key]
      | _ => []
    | some (.delayed key (.sleeping due)) =>
      if due ≤ w.desk.schedule.now then [.pushed key] else []
    | _ => []
  | .elapse _ => []
  | .command (.push key) => [.pushed key]
  | .command (.pushAll keys) => keys.map .pushed
  | .command (.pushAfter key millis) => if millis = 0 then [.pushed key] else []
  | .command (.finish key) => [.finished key]
  | .command .close => [.closed]
  | .command _ => []

/-- What was done to the queue in a past. -/
def story (past : Past QueueWorld Command) : List Deed :=
  past.flatMap fun (w, h) => w.deeds h

/-- Everything may be done at any time, but a key is reported done only while it
is handed out. -/
def conduct : Conduct QueueWorld Command where
  apply := apply
  allows past
    | .finish key => decide (Outstanding (story past) key)
    | _ => true

variable {w w₀ : QueueWorld} {past : Past QueueWorld Command} {told : List Deed}

theorem story_append_singleton (past : Past QueueWorld Command) (w : QueueWorld)
    (h : Happening Command) : story (past ++ [(w, h)]) = story past ++ w.deeds h := by
  simp [story]

theorem story_move (h : Story told w.desk.queue) (t : TaskId) :
    Story (told ++ w.deeds (.move t)) (Cooperative.run w t).desk.queue := by
  have rests : (Cooperative.run w t).desk.queue = (w.act t).1.desk.queue := by
    rw [Cooperative.run]
    simp only [Cooperative.act, Cooperative.reschedule]
    split <;> simp_all
  rw [rests]
  simp only [act, deeds]
  cases found : w.tasks[t]? with
  | none => simpa using h
  | some task =>
    cases task with
    | answered key => simpa using h
    | gaveUp => simpa using h
    | asking =>
        obtain ⟨key, queue, bell, taken, ask⟩ | ⟨bell, answer, ask, other⟩ :=
          w.desk.ask_cases t
        · simpa [ask, setTask] using h.take taken
        · cases answer <;> simp_all [setTask]
    | delayed key p =>
        simp only [setTask, DelayedPush.act_queue]
        cases p with
        | fresh millis => simpa using h
        | pushed => simpa using h
        | sleeping due =>
            dsimp only
            split
            · exact h.push key
            · simpa using h

theorem story_pushAll (h : Story told w.desk.queue) (keys : List String) :
    Story (told ++ keys.map .pushed) (keys.foldl Desk.push w.desk).queue := by
  generalize w.desk = d at h ⊢
  induction keys generalizing d told with
  | nil => simpa using h
  | cons key keys ih =>
      have first : Story (told ++ [.pushed key]) (d.push key).queue := by
        simpa using h.push key
      simpa using ih _ first

theorem story_apply (h : Story told w.desk.queue) (c : Command)
    (done : ∀ key, c = .finish key → Outstanding told key) :
    Story (told ++ w.deeds (.command c)) (w.apply c).desk.queue := by
  cases c with
  | push key => simpa [apply, deeds] using h.push key
  | pushAll keys => exact story_pushAll h keys
  | pushAfter key millis =>
      simp only [apply, pushAfter, deeds]
      split
      · simpa using h.push key
      · simpa [spawn, Desk.wake] using h
  | ask => simpa [apply, deeds, spawn, Desk.wake] using h
  | abort consumer =>
      have same : (w.apply (.abort consumer)).desk.queue = w.desk.queue := by
        simp only [apply, abort]
        split
        · split <;> simp [setTask]
        · rfl
      simpa [deeds, same] using h
  | finish key => simpa [apply, deeds] using h.finish (done key rfl)
  | close => simpa [apply, deeds] using h.close
  | pass millis => simpa [apply, deeds] using h

theorem story_of_run (run : conduct.Run {} past w) : Story (story past) w.desk.queue := by
  induction run with
  | start => exact .start
  | @next past w h run possible ih =>
      rw [story_append_singleton]
      cases h with
      | move t => exact story_move ih t
      | elapse time => simpa [deeds, Conduct.after, Cooperative.reschedule] using ih
      | command c =>
          refine story_apply ih c ?_
          rintro key rfl
          simpa [Conduct.Possible, conduct] using possible

/-- At every moment of every run the three collections of the queue say what was
done to it. No key waits twice, and no key that waits is in flight. In flight are
the keys that were handed out and not reported done since; dirty are the keys that
wait, and those in flight that were pushed since their hand-out and before the
queue was closed. So no key is handed out while it is in flight, and a push before
the closing leaves its key dirty until a later hand-out of the key. -/
theorem collections_of_run (run : conduct.Run {} past w) :
    w.desk.queue.queue.Nodup ∧
    (∀ k ∈ w.desk.queue.queue, k ∉ w.desk.queue.inFlight) ∧
    (w.desk.queue.inFlight.Nodup ∧
      ∀ k, k ∈ w.desk.queue.inFlight ↔ Outstanding (story past) k) ∧
    (w.desk.queue.dirty.Nodup ∧
      ∀ k, k ∈ w.desk.queue.dirty ↔ k ∈ w.desk.queue.queue ∨
        (k ∈ w.desk.queue.inFlight ∧ PushedSince (story past) k)) ∧
    (∀ before later k, story past = before ++ .handed k :: later → ¬ Outstanding before k) ∧
    (∀ before later k, story past = before ++ .pushed k :: later → .closed ∉ before →
      k ∈ w.desk.queue.dirty ∨ .handed k ∈ later) := by
  have told := (story_of_run run).explained
  exact ⟨told.queue_nodup, told.apart, ⟨told.inFlight_nodup, fun _ => told.mem_inFlight_iff⟩,
    ⟨told.dirty_nodup, fun _ => told.mem_dirty_iff⟩, told.single, told.kept⟩

/-- A consumer is handed a key that is pushed again before the queue is closed, and
reports it done when it is. -/
def closing : List (Happening Command) :=
  [.command .ask, .move 0, .command (.push "a"), .move 0, .command (.push "a"),
    .command .close, .command (.push "b"), .command (.finish "a")]

theorem collections_of_closing :
    ∃ past w, conduct.Run {} past w ∧
      story past = [.pushed "a", .handed "a", .pushed "a", .closed, .pushed "b", .finished "a"] ∧
      w.desk.queue.queue = ["a"] ∧
      (∀ k, k ∈ w.desk.queue.inFlight ↔ Outstanding (story past) k) ∧
      (∀ k, k ∈ w.desk.queue.dirty ↔ k ∈ w.desk.queue.queue ∨
        (k ∈ w.desk.queue.inFlight ∧ PushedSince (story past) k)) ∧
      ("a" ∈ w.desk.queue.dirty ∨ .handed "a" ∈ [Deed.closed, .pushed "b", .finished "a"]) := by
  have begun : conduct.Run {} [] {} := .start
  have run := begun.follow closing (by decide +kernel)
  have told : story ((conduct.follow [] {} closing).get (by decide +kernel)).1 =
      [.pushed "a", .handed "a", .pushed "a", .closed, .pushed "b", .finished "a"] := by
    decide +kernel
  have waits : ((conduct.follow [] {} closing).get (by decide +kernel)).2.desk.queue.queue =
      ["a"] := by
    decide +kernel
  obtain ⟨-, -, ⟨-, flight⟩, ⟨-, dirty⟩, -, kept⟩ := collections_of_run run
  exact ⟨_, _, run, told, waits, flight, dirty,
    kept [.pushed "a", .handed "a"] _ "a" told (by decide)⟩

end ResourceWatch.QueueWorld
