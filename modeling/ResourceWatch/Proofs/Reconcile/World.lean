import ResourceWatch.Proofs.Reconcile.Workshop
import ResourceWatch.Proofs.WorkQueue.Story
import ResourceWatch.Reconcile.World

/-!
# Runs of the workers

Workers may begin, keys may be pushed at once or later, and the queue may be closed, at any
time and in any number. What happens to the reconciles is read off the record: which begin,
which have a result, and for which a retry is announced. `WorkerWorld.Turn` says what
becomes of a task that goes on.

Every run tells a story of its queue. A key that a worker reconciles is in flight, and no
two workers reconcile the same key.
-/

namespace ResourceWatch.WorkerWorld

open WorkQueue

def conduct : Conduct WorkerWorld Command where
  apply := apply
  allows _ _ := true

/-- A workshop before anything happens: nobody works there, and no key has been pushed. -/
def start (backoff : Backoff) (reconciler : Reconciler) (cache : Cache) : WorkerWorld where
  shop := { reconciler, cache, ledger := { backoff } }

variable {w w' : WorkerWorld} {past : Past WorkerWorld Command} {t u : TaskId} {key k : String}
  {result : ReconcileResult} {h : Happening Command} {backoff : Backoff}
  {reconciler : Reconciler} {cache : Cache}

/-- What is recorded when something happens. -/
def news (w : WorkerWorld) (h : Happening Command) : History :=
  (conduct.after w h).shop.history.drop w.shop.history.length

/-- The keys whose reconcile begins when something happens. -/
def begins (w : WorkerWorld) (h : Happening Command) : List String := (w.news h).begun

/-- The reconciles that have a result when something happens. -/
def results (w : WorkerWorld) (h : Happening Command) : List (String × ReconcileResult) :=
  (w.news h).results

/-- The retries that are announced when something happens, each with its delay. -/
def announces (w : WorkerWorld) (h : Happening Command) : List (String × Duration) :=
  (w.news h).announced

/-- The key that a put-off push pushes when its task goes on. -/
def fires (w : WorkerWorld) (t : TaskId) : List String :=
  match w.tasks[t]? with
  | some (.delayed key (.sleeping due)) => if due ≤ w.shop.schedule.now then [key] else []
  | _ => []

/-- The keys that are pushed when something happens, whether that counts or not. -/
def pushes (w : WorkerWorld) : Happening Command → List String
  | .move t => w.fires t
  | .elapse _ => []
  | .command (.push key) => [key]
  | .command (.pushAfter key millis) => if millis = 0 then [key] else []
  | .command _ => []

def closes : Happening Command → List Deed
  | .command .close => [.closed]
  | _ => []

def deeds (w : WorkerWorld) (h : Happening Command) : List Deed :=
  (w.begins h).map .handed ++ (w.results h).map (.finished ·.1) ++ (w.pushes h).map .pushed ++
    closes h

def story (past : Past WorkerWorld Command) : List Deed := past.flatMap fun (w, h) => w.deeds h

@[simp] theorem story_append (past : Past WorkerWorld Command) (w : WorkerWorld)
    (h : Happening Command) : story (past ++ [(w, h)]) = story past ++ w.deeds h := by
  simp [story]

/-- A worker has the result of a key in hand, whose reconcile has taken its time or takes
none. -/
inductive Holds (w : WorkerWorld) (t : TaskId) (key : String) (result : ReconcileResult) :
    WorkQueue → List String → Prop where
  /-- It is handed the key, and has the result at once. -/
  | taken {queue : WorkQueue} (asking : w.tasks[t]? = some (.worker .asking))
      (taken : w.shop.queue.take? = some (key, queue)) : Holds w t key result queue [key]
  /-- It has reconciled the key for some time. -/
  | worked {due : Nat} (working : w.tasks[t]? = some (.worker (.working key result due)))
      (late : due ≤ w.shop.schedule.now) : Holds w t key result w.shop.queue []

/-- The retry of a key by a task of its own. -/
def retryTask (key : String) (delay : Duration) : Task := .delayed key (.fresh delay.millisUp)

/-- What going on amounts to for a task: which tasks there are then, what becomes of the
keys, and what is told. -/
inductive Turn (w : WorkerWorld) (t : TaskId) (tasks : List Task) (queue : WorkQueue)
    (told : History) : Prop where
  /-- It waits, or sleeps on, or has ended, or there is none. -/
  | rests (quiet : w.fires t = []) (tasks_eq : tasks = w.tasks) (queue_eq : queue = w.shop.queue)
      (tells : told.Tells [] [] [])
  /-- A worker ends, as there will be no more keys. -/
  | stops (asking : w.tasks[t]? = some (.worker .asking)) (closed : w.shop.queue.closed = true)
      (tasks_eq : tasks = w.tasks.set t (.worker .stopped)) (queue_eq : queue = w.shop.queue)
      (tells : told.Tells [] [] [])
  /-- A put-off push sets its timer. -/
  | sleeps (key : String) (millis : Nat)
      (fresh : w.tasks[t]? = some (.delayed key (.fresh millis)))
      (tasks_eq : tasks =
        w.tasks.set t (.delayed key (.sleeping (w.shop.schedule.wakingTime millis))))
      (queue_eq : queue = w.shop.queue) (tells : told.Tells [] [] [])
  /-- The time of a put-off push has come. -/
  | fires (key : String) (due : Nat)
      (sleeping : w.tasks[t]? = some (.delayed key (.sleeping due)))
      (late : due ≤ w.shop.schedule.now) (tasks_eq : tasks = w.tasks.set t (.delayed key .pushed))
      (queue_eq : queue = (w.shop.queue.push key).1) (tells : told.Tells [] [] [])
  /-- A worker is handed a key, and reconciles it for some time. -/
  | takes (key : String) (result : ReconcileResult) (due : Nat)
      (asking : w.tasks[t]? = some (.worker .asking))
      (taken : w.shop.queue.take? = some (key, queue))
      (tasks_eq : tasks = w.tasks.set t (.worker (.working key result due)))
      (tells : told.Tells [key] [] [])
  /-- The reconcile of a key has a result. -/
  | concludes (key : String) (result : ReconcileResult) (held : WorkQueue) (begun : List String)
      (holds : Holds w t key result held begun)
      (tasks_eq : tasks = w.tasks.set t (.worker .asking) ++
        ((w.shop.ledger.retry? key result).map (retryTask key)).toList)
      (queue_eq : queue = (held.finish key).1)
      (tells : told.Tells begun [(key, result)]
        ((w.shop.ledger.retry? key result).map (key, ·)).toList)

/-- What a move leaves to its successor: more is told, and no time has passed. -/
structure Goes (w w' : WorkerWorld) (told : History) : Prop where
  history : w'.shop.history = w.shop.history ++ told
  now : w'.shop.schedule.now = w.shop.schedule.now
  ledger : w'.shop.ledger = told.results.foldl (fun l r => l.after r.1 r.2) w.shop.ledger

theorem run_eq (w : WorkerWorld) (t : TaskId) : ∃ s : Schedule,
    s.now = (w.act t).1.shop.schedule.now ∧
      Cooperative.run w t = Cooperative.reschedule (w.act t).1 s := by
  rw [Cooperative.run]
  simp only [Cooperative.act]
  split
  · rename_i w' acted
    rw [acted]
    exact ⟨w'.shop.schedule, rfl, rfl⟩
  · rename_i w' acted
    rw [acted]
    exact ⟨w'.shop.schedule.rest t, rfl, rfl⟩

theorem turn_settle {s : Workshop} {held : WorkQueue} {begun : List String} {told : History}
    (holds : Holds w t key result held begun) (queue : s.queue = held)
    (history : s.history = w.shop.history ++ told) (tells : told.Tells begun [] [])
    (now : s.schedule.now = w.shop.schedule.now) (ledger : s.ledger = w.shop.ledger) :
    let move := Worker.settle s key result w.tasks.length
    let tasks := w.tasks.set t (.worker move.worker) ++ (move.retry.map fun (key, millis) =>
      Task.delayed key (.fresh millis)).toList
    ∃ told, Turn w t tasks move.workshop.queue told ∧
      Goes w { shop := move.workshop, tasks } told := by
  intro move tasks
  have settled := Worker.settled s key result w.tasks.length
  obtain ⟨lines, recorded, tells'⟩ := settled.history
  rw [ledger] at tells'
  have all := tells.append tells'
  refine ⟨told ++ lines, .concludes key result held begun holds ?_ ?_ ?_, ?_, ?_, ?_⟩
  · simp only [tasks, move, settled.worker, settled.retry, ledger, Option.map_map]
    rfl
  · exact queue ▸ settled.queue
  · simpa using all
  · rw [recorded, history, List.append_assoc]
  · exact settled.now.trans now
  · rw [all.results]
    exact ledger ▸ settled.ledger

theorem turn_actWorker {state : Worker} (found : w.tasks[t]? = some (.worker state)) :
    ∃ told, Turn w t (w.act t).1.tasks (w.act t).1.shop.queue told ∧ Goes w (w.act t).1 told := by
  simp only [act, found]
  have same : w.tasks.set t (.worker state) = w.tasks := by
    obtain ⟨known, here⟩ := List.getElem?_eq_some_iff.1 found
    rw [← here, List.set_getElem_self]
  have quiet : w.fires t = [] := by simp only [fires, found]
  cases state with
  | stopped =>
      exact ⟨[], .rests quiet (by simp [Worker.act, same]) rfl ⟨rfl, rfl, rfl⟩,
        by simp [Worker.act], rfl, rfl⟩
  | working key result due =>
      by_cases late : due ≤ w.shop.schedule.now
      · simp only [Worker.act, if_pos late]
        exact turn_settle (.worked found late) rfl rfl ⟨rfl, rfl, rfl⟩ rfl rfl
      · simp only [Worker.act, if_neg late]
        exact ⟨[], .rests quiet (by simp [same]) rfl ⟨rfl, rfl, rfl⟩, by simp, rfl, rfl⟩
  | asking =>
      obtain ⟨key, queue, bell, taken, ask⟩ | ⟨bell, answer, ask, other⟩ :=
        w.shop.toDesk.ask_cases t
      · let s₁ : Workshop := { w.shop with toDesk := { w.shop.toDesk with queue, bell } }
        obtain ⟨lines, reconciler, began, tells⟩ := s₁.begin_eq key
        simp only [Worker.act, ask]
        rcases begun : s₁.begin key with ⟨s₂, millis, result⟩
        obtain rfl : s₂ = _ := (congrArg Prod.fst begun).symm.trans began
        dsimp only
        split
        · exact turn_settle (.taken found taken) rfl rfl tells rfl rfl
        · refine ⟨lines, .takes key result (w.shop.schedule.wakingTime millis) found taken ?_ tells,
            rfl, rfl, ?_⟩
          · simp
            rfl
          · rw [tells.results]
            rfl
      · simp only [Worker.act, ask]
        cases answer with
        | key key => exact absurd rfl (other key)
        | noMore =>
            have closed := Desk.closed_of_ask (d := w.shop.toDesk) (t := t) (by rw [ask])
            exact ⟨[.logged .workerStopped], .stops found closed (by simp) rfl ⟨rfl, rfl, rfl⟩,
              rfl, rfl, rfl⟩
        | again | wait =>
            exact ⟨[], .rests quiet (by simp [same]) rfl ⟨rfl, rfl, rfl⟩, by simp, rfl, rfl⟩

theorem turn_actDelayed {push : DelayedPush} (found : w.tasks[t]? = some (.delayed key push)) :
    ∃ told, Turn w t (w.act t).1.tasks (w.act t).1.shop.queue told ∧ Goes w (w.act t).1 told := by
  simp only [act, found]
  have same : w.tasks.set t (.delayed key push) = w.tasks := by
    obtain ⟨known, here⟩ := List.getElem?_eq_some_iff.1 found
    rw [← here, List.set_getElem_self]
  cases push with
  | fresh millis =>
      exact ⟨[], .sleeps key millis found rfl rfl ⟨rfl, rfl, rfl⟩,
        by simp [DelayedPush.act, setTask], rfl, rfl⟩
  | pushed =>
      exact ⟨[], .rests (by simp only [fires, found]) (by simp [DelayedPush.act, setTask, same]) rfl
          ⟨rfl, rfl, rfl⟩,
        by simp [DelayedPush.act, setTask], rfl, rfl⟩
  | sleeping due =>
      by_cases late : due ≤ w.shop.schedule.now
      · simp only [DelayedPush.act, if_pos late]
        have now := (w.shop.toDesk.serves_push key).schedule.now
        obtain quiet | tells := w.shop.toDesk.push_history key
        · exact ⟨[], .fires key due found late rfl Desk.push_queue ⟨rfl, rfl, rfl⟩,
            by simpa [setTask] using quiet, now, rfl⟩
        · exact ⟨_, .fires key due found late rfl Desk.push_queue ⟨rfl, rfl, rfl⟩, tells, now, rfl⟩
      · simp only [DelayedPush.act, if_neg late]
        exact ⟨[], .rests (by simp only [fires, found, if_neg late]) (by simp [setTask, same]) rfl
          ⟨rfl, rfl, rfl⟩, by simp [setTask], rfl, rfl⟩

theorem turn_run (w : WorkerWorld) (t : TaskId) :
    Turn w t (Cooperative.run w t).tasks (Cooperative.run w t).shop.queue (w.news (.move t)) ∧
      Goes w (Cooperative.run w t) (w.news (.move t)) := by
  obtain ⟨s, now, same⟩ := w.run_eq t
  obtain ⟨told, turn, goes⟩ : ∃ told,
      Turn w t (w.act t).1.tasks (w.act t).1.shop.queue told ∧ Goes w (w.act t).1 told := by
    cases found : w.tasks[t]? with
    | none =>
        have still : w.act t = (w, .rests) := by simp only [act, found]
        rw [still]
        exact ⟨[], .rests (by simp only [fires, found]) rfl rfl ⟨rfl, rfl, rfl⟩, by simp, rfl, rfl⟩
    | some task =>
        cases task with
        | worker state => exact turn_actWorker found
        | delayed key push => exact turn_actDelayed found
  have told_eq : w.news (.move t) = told := by
    have recorded : (Cooperative.run w t).shop.history = w.shop.history ++ told := by
      rw [same]
      exact goes.history
    rw [news, Conduct.after, recorded, List.drop_left]
  rw [told_eq, same]
  exact ⟨turn, goes.history, now.trans goes.now, goes.ledger⟩

/-- A worker reconciles a key. -/
def Works (tasks : List Task) (t : TaskId) (key : String) : Prop :=
  ∃ result due, tasks[t]? = some (.worker (.working key result due))

/-- Tasks that do not reconcile. -/
def Idlers (tasks : List Task) : Prop :=
  ∀ task ∈ tasks, ∀ key result due, task ≠ .worker (.working key result due)

theorem works_append {tasks more : List Task} (idle : Idlers more)
    (works : Works (tasks ++ more) u k) : Works tasks u k := by
  obtain ⟨result, due, found⟩ := works
  obtain known | beyond := Nat.lt_or_ge u tasks.length
  · exact ⟨result, due, List.getElem?_append_left known ▸ found⟩
  · rw [List.getElem?_append_right beyond] at found
    exact absurd rfl (idle _ (List.mem_of_getElem? found) k result due)

/-- Where one task has changed, a task reconciles a key as it did, or is that one. -/
theorem works_set {tasks : List Task} {task : Task} (works : Works (tasks.set t task) u k) :
    (u ≠ t ∧ Works tasks u k) ∨
      (u = t ∧ ∃ result due, task = .worker (.working k result due)) := by
  obtain ⟨result, due, found⟩ := works
  rw [List.getElem?_set] at found
  split at found
  · rename_i same
    split at found
    · exact .inr ⟨same.symm, result, due, Option.some.inj found⟩
    · simp at found
  · rename_i other
    exact .inl ⟨Ne.symm other, result, due, found⟩

/-- The queue has its story, the keys that are reconciled are in flight, and no key is
reconciled by two workers. -/
structure Sound (told : List Deed) (tasks : List Task) (queue : WorkQueue) : Prop where
  story : Story told queue
  inFlight : ∀ t k, Works tasks t k → k ∈ queue.inFlight
  alone : ∀ t u k, Works tasks t k → Works tasks u k → t = u

namespace Sound

variable {told : List Deed} {tasks : List Task} {queue queue' : WorkQueue}
  (sound : Sound told tasks queue)
include sound

/-- Where no worker has begun or ended a reconcile, and no key has left those in flight. -/
theorem of_works {told' : List Deed} {tasks' : List Task} (story : Story told' queue')
    (works : ∀ u k, Works tasks' u k → Works tasks u k)
    (flight : queue'.inFlight = queue.inFlight) : Sound told' tasks' queue' where
  story := story
  inFlight u k now := flight ▸ sound.inFlight u k (works u k now)
  alone u v k now now' := sound.alone u v k (works u k now) (works v k now')

theorem set {task : Task} (idle : ∀ key result due, task ≠ .worker (.working key result due)) :
    Sound told (tasks.set t task) queue :=
  sound.of_works sound.story
    (fun _ _ now => (works_set now).elim And.right
      fun ⟨_, result, due, same⟩ => absurd same (idle _ result due)) rfl

theorem push (key : String) : Sound (told ++ [.pushed key]) tasks (queue.push key).1 :=
  sound.of_works (sound.story.push key) (fun _ _ now => now) push_inFlight

theorem take {due : Nat} (taken : queue.take? = some (key, queue')) :
    Sound (told ++ [.handed key]) (tasks.set t (.worker (.working key result due))) queue' := by
  have explained := sound.story.explained
  have flight := explained.take?_inFlight taken
  have fresh := (explained.of_take? taken).2.2
  refine ⟨sound.story.take taken, fun u k now => ?_, fun u v k now now' => ?_⟩
  · rw [flight]
    obtain ⟨-, old⟩ | ⟨-, _, _, same⟩ := works_set now
    · exact List.mem_append_left _ (sound.inFlight u k old)
    · cases same
      simp
  · obtain ⟨-, old⟩ | ⟨here, _, _, same⟩ := works_set now <;>
      obtain ⟨-, old'⟩ | ⟨here', _, _, same'⟩ := works_set now'
    · exact sound.alone u v k old old'
    · cases same'
      exact absurd (sound.inFlight u _ old) fresh
    · cases same
      exact absurd (sound.inFlight v _ old') fresh
    · exact here.trans here'.symm

theorem finish {more : List Task} (idle : Idlers more) (works : Works tasks t key) :
    Sound (told ++ [.finished key]) (tasks.set t (.worker .asking) ++ more)
      (queue.finish key).1 := by
  have explained := sound.story.explained
  have flight := sound.inFlight t key works
  have still (u : TaskId) (k : String)
      (now : Works (tasks.set t (.worker .asking) ++ more) u k) : u ≠ t ∧ Works tasks u k := by
    obtain old | ⟨-, _, _, same⟩ := works_set (works_append idle now)
    · exact old
    · cases same
  refine ⟨sound.story.finish (explained.mem_inFlight_iff.1 flight), fun u k now => ?_,
    fun u v k now now' => sound.alone u v k (still u k now).2 (still v k now').2⟩
  obtain ⟨other, old⟩ := still u k now
  have differs : k ≠ key := by
    rintro rfl
    exact other (sound.alone u t k old works)
  rw [finish_inFlight]
  exact (List.mem_erase_of_ne differs).2 (sound.inFlight u k old)

end Sound

theorem deeds_move {begun : List String} {ended : List (String × ReconcileResult)}
    {announced : List (String × Duration)}
    (tells : (w.news (.move t)).Tells begun ended announced) :
    w.deeds (.move t) =
      begun.map .handed ++ ended.map (.finished ·.1) ++ (w.fires t).map .pushed := by
  rw [deeds, begins, results, tells.begun, tells.results]
  exact List.append_nil _

/-- What a move does to the queue is what it adds to the story. -/
theorem Sound.turn {told : List Deed} {tasks : List Task} {queue : WorkQueue}
    (sound : Sound told w.tasks w.shop.queue) (turn : Turn w t tasks queue (w.news (.move t))) :
    Sound (told ++ w.deeds (.move t)) tasks queue := by
  cases turn with
  | rests quiet tasks_eq queue_eq tells =>
      subst tasks_eq queue_eq
      simpa [deeds_move tells, quiet] using sound
  | stops asking closed tasks_eq queue_eq tells =>
      subst tasks_eq queue_eq
      have quiet : w.fires t = [] := by simp only [fires, asking]
      simpa [deeds_move tells, quiet] using sound.set (by simp)
  | sleeps key millis fresh tasks_eq queue_eq tells =>
      subst tasks_eq queue_eq
      have quiet : w.fires t = [] := by simp only [fires, fresh]
      simpa [deeds_move tells, quiet] using sound.set (by simp)
  | fires key due sleeping late tasks_eq queue_eq tells =>
      subst tasks_eq queue_eq
      have pushes : w.fires t = [key] := by simp only [fires, sleeping, if_pos late]
      simpa [deeds_move tells, pushes] using (sound.push key).set (by simp)
  | takes key result due asking taken tasks_eq tells =>
      subst tasks_eq
      have quiet : w.fires t = [] := by simp only [fires, asking]
      simpa [deeds_move tells, quiet] using sound.take taken
  | concludes key result held begun holds tasks_eq queue_eq tells =>
      subst tasks_eq queue_eq
      have idle : Idlers ((w.shop.ledger.retry? key result).map (retryTask key)).toList := by
        rintro task there key result due rfl
        simp [retryTask] at there
      cases holds with
      | taken asking taken =>
          have quiet : w.fires t = [] := by simp only [fires, asking]
          have known := (List.getElem?_eq_some_iff.1 asking).1
          let tasks := w.tasks.set t (.worker (.working key result 0))
          have begins : Sound (told ++ [.handed key]) tasks held := sound.take taken
          have works : Works tasks t key := ⟨result, 0, by simp [tasks, known]⟩
          simpa [deeds_move tells, quiet, tasks] using begins.finish idle works
      | worked working late =>
          have quiet : w.fires t = [] := by simp only [fires, working]
          simpa [deeds_move tells, quiet] using sound.finish idle ⟨result, _, working⟩

/-- The tasks that a command brings. -/
def brings : Command → List Task
  | .start => [.worker .asking]
  | .pushAfter key millis => if millis = 0 then [] else [.delayed key (.fresh millis)]
  | _ => []

@[simp] theorem apply_tasks (w : WorkerWorld) (c : Command) :
    (w.apply c).tasks = w.tasks ++ brings c := by
  cases c with
  | pushAfter key millis =>
      simp only [apply, brings]
      split <;> simp [onDesk, spawn]
  | _ => simp [apply, brings, onDesk, spawn]

theorem goes_onDesk_push (w : WorkerWorld) (key : String) :
    ∃ told, Goes w (w.onDesk (·.push key)) told ∧ told.Tells [] [] [] := by
  have now := (w.shop.toDesk.serves_push key).schedule.now
  obtain quiet | tells := w.shop.toDesk.push_history key
  · exact ⟨[], ⟨by simpa [onDesk] using quiet, now, rfl⟩, rfl, rfl, rfl⟩
  · exact ⟨_, ⟨tells, now, rfl⟩, rfl, rfl, rfl⟩

/-- What is done from outside takes no time, and is not told as a reconcile. -/
theorem goes_command (w : WorkerWorld) (c : Command) :
    Goes w (w.apply c) (w.news (.command c)) ∧ (w.news (.command c)).Tells [] [] [] := by
  obtain ⟨told, goes, tells⟩ : ∃ told, Goes w (w.apply c) told ∧ told.Tells [] [] [] := by
    have spawns (task : Task) : Goes w (w.spawn task) [] := ⟨by simp [spawn, Desk.wake],
      Schedule.wake_now _ _, rfl⟩
    cases c with
    | start => exact ⟨[], spawns _, rfl, rfl, rfl⟩
    | push key => exact w.goes_onDesk_push key
    | pushAfter key millis =>
        simp only [apply]
        split
        · exact w.goes_onDesk_push key
        · exact ⟨[], spawns _, rfl, rfl, rfl⟩
    | close =>
        exact ⟨[], ⟨by simp [apply, onDesk], (w.shop.toDesk.serves_close).schedule.now, rfl⟩,
          rfl, rfl, rfl⟩
    | pass millis => exact ⟨[], ⟨by simp [apply], rfl, rfl⟩, rfl, rfl, rfl⟩
  have told_eq : w.news (.command c) = told := by
    have recorded : (conduct.after w (.command c)).shop.history = w.shop.history ++ told :=
      goes.history
    rw [news, recorded, List.drop_left]
  rw [told_eq]
  exact ⟨goes, tells⟩

theorem news_elapse (w : WorkerWorld) (time : Nat) : w.news (.elapse time) = [] :=
  List.drop_length

/-- What is done from outside to the queue is what it adds to the story. -/
theorem Sound.apply {told : List Deed} (sound : Sound told w.tasks w.shop.queue) (c : Command) :
    Sound (told ++ w.deeds (.command c)) (w.apply c).tasks (w.apply c).shop.queue := by
  have tells := (w.goes_command c).2
  have added : w.deeds (.command c) =
      (w.pushes (.command c)).map .pushed ++ closes (.command c) := by
    rw [deeds, begins, results, tells.begun, tells.results]
    rfl
  have brought : Sound told (w.tasks ++ brings c) w.shop.queue := by
    refine sound.of_works sound.story (fun u k works => works_append ?_ works) rfl
    cases c with
    | pushAfter key millis => by_cases none : millis = 0 <;> simp [Idlers, brings, none]
    | _ => simp [Idlers, brings]
  rw [added, apply_tasks]
  cases c with
  | start => simpa [pushes, closes, WorkerWorld.apply, spawn, Desk.wake] using brought
  | push key => simpa [pushes, closes, WorkerWorld.apply, onDesk] using brought.push key
  | pushAfter key millis =>
      by_cases none : millis = 0
      · simpa [pushes, closes, WorkerWorld.apply, onDesk, none] using brought.push key
      · simpa [pushes, closes, WorkerWorld.apply, spawn, Desk.wake, none] using brought
  | close =>
      have closed := brought.of_works brought.story.close (fun _ _ works => works) rfl
      simpa [pushes, closes, WorkerWorld.apply, onDesk] using closed
  | pass millis => simpa [pushes, closes, WorkerWorld.apply] using brought

theorem deeds_elapse (w : WorkerWorld) (time : Nat) : w.deeds (.elapse time) = [] := by
  rw [deeds, begins, results, news_elapse]
  rfl

theorem sound_of_run (run : conduct.Run (start backoff reconciler cache) past w) :
    Sound (story past) w.tasks w.shop.queue := by
  induction run with
  | start => exact ⟨.start, by simp [start, Works], by simp [start, Works]⟩
  | @next past w h run possible ih =>
      rw [story_append]
      cases h with
      | move t => exact ih.turn (w.turn_run t).1
      | elapse time =>
          rw [deeds_elapse, List.append_nil]
          exact ih
      | command c => exact ih.apply c

namespace Sound

variable {told : List Deed} (sound : Sound told w.tasks w.shop.queue)
include sound

/-- A reconcile begins by the hand-out of a key that waits, and nothing is pushed then. -/
theorem of_begins (begins : k ∈ w.begins h) :
    w.begins h = [k] ∧ w.pushes h = [] ∧ k ∈ w.shop.queue.queue ∧ k ∉ w.shop.queue.inFlight := by
  have handed {t : TaskId} {key : String} {queue : WorkQueue}
      (asking : w.tasks[t]? = some (.worker .asking))
      (taken : w.shop.queue.take? = some (key, queue)) (begun : w.begins (.move t) = [key])
      (there : k ∈ w.begins (.move t)) : w.begins (.move t) = [k] ∧ w.pushes (.move t) = [] ∧
        k ∈ w.shop.queue.queue ∧ k ∉ w.shop.queue.inFlight := by
    obtain rfl : k = key := by simpa [begun] using there
    have waits := sound.story.explained.of_take? taken
    exact ⟨begun, by simp only [pushes, fires, asking], waits.1, waits.2.2⟩
  cases h with
  | elapse time => simp [WorkerWorld.begins, news_elapse, History.begun] at begins
  | command c =>
      rw [WorkerWorld.begins, (w.goes_command c).2.begun] at begins
      simp at begins
  | move t =>
      cases (w.turn_run t).1 with
      | rests _ _ _ tells | stops _ _ _ _ tells | sleeps _ _ _ _ _ tells
      | fires _ _ _ _ _ _ tells =>
          rw [WorkerWorld.begins, tells.begun] at begins
          simp at begins
      | takes key result due asking taken tasks_eq tells =>
          exact handed asking taken tells.begun begins
      | concludes key result held begun holds tasks_eq queue_eq tells =>
          cases holds with
          | taken asking taken => exact handed asking taken tells.begun begins
          | worked working late =>
              rw [WorkerWorld.begins, tells.begun] at begins
              simp at begins

/-- A key is dirty after something has happened if it was before and is not handed out, or
if it is pushed and that counts. -/
theorem mem_dirty_after (h : Happening Command) :
    k ∈ (conduct.after w h).shop.queue.dirty ↔
      (k ∈ w.shop.queue.dirty ∧ k ∉ w.begins h) ∨
        (k ∈ w.pushes h ∧ w.shop.queue.closed = false) := by
  cases h with
  | elapse time =>
      simp [WorkerWorld.begins, news_elapse, History.begun, pushes, Conduct.after,
        Cooperative.reschedule]
  | command c =>
      rw [WorkerWorld.begins, (w.goes_command c).2.begun]
      show k ∈ (w.apply c).shop.queue.dirty ↔ _
      cases c with
      | push key => simp [WorkerWorld.apply, onDesk, pushes, mem_push_dirty]
      | pushAfter key millis =>
          by_cases none : millis = 0
          · simp [WorkerWorld.apply, onDesk, pushes, mem_push_dirty, none]
          · simp [WorkerWorld.apply, spawn, Desk.wake, pushes, none]
      | start => simp [WorkerWorld.apply, spawn, Desk.wake, pushes]
      | close => simp [WorkerWorld.apply, onDesk, pushes, WorkQueue.close]
      | pass millis => simp [WorkerWorld.apply, pushes]
  | move t =>
      have explained := sound.story.explained
      show k ∈ (Cooperative.run w t).shop.queue.dirty ↔ _
      rw [WorkerWorld.begins, pushes]
      cases (w.turn_run t).1 with
      | rests quiet _ queue_eq tells => simp [queue_eq, tells.begun, quiet]
      | stops asking _ _ queue_eq tells => simp [queue_eq, tells.begun, WorkerWorld.fires, asking]
      | sleeps key millis fresh _ queue_eq tells =>
          simp [queue_eq, tells.begun, WorkerWorld.fires, fresh]
      | fires key due sleeping late _ queue_eq tells =>
          simp [queue_eq, tells.begun, WorkerWorld.fires, sleeping, late, mem_push_dirty]
      | takes key result due asking taken _ tells =>
          simp [tells.begun, WorkerWorld.fires, asking, explained.mem_take?_dirty taken, and_comm]
      | concludes key result held begun holds _ queue_eq tells =>
          rw [queue_eq, tells.begun, finish_dirty]
          cases holds with
          | taken asking taken =>
              simp [WorkerWorld.fires, asking, explained.mem_take?_dirty taken, and_comm]
          | worked working late => simp [WorkerWorld.fires, working]

end Sound

end ResourceWatch.WorkerWorld
