import Mathlib.Data.List.Count
import ResourceWatch.Proofs.Reconcile.World

/-!
# Retries

After a failure that may pass, the key is pushed again when the announced delay is over. The
push is a task of its own, which nothing calls off: it also pushes when its key has been
pushed from outside in the meantime, and has failed again.

So an announced delay says only when its own push comes. Until then the key waits to be
reconciled exactly if it has been pushed since the failed reconcile began, from outside or
by the retry of an earlier failure.
-/

namespace ResourceWatch.WorkerWorld

open WorkQueue

variable {w w₀ w₁ : WorkerWorld} {past earlier since : Past WorkerWorld Command} {t u : TaskId}
  {k : String} {d : Duration} {h h₀ h₁ : Happening Command} {backoff : Backoff}
  {reconciler : Reconciler} {cache : Cache} {p : DelayedPush}

/-- The tasks of the pushes that were put off from outside in a past. -/
def putOff (past : Past WorkerWorld Command) : List TaskId :=
  past.flatMap fun
    | (w, .command (.pushAfter _ millis)) => if millis = 0 then [] else [w.tasks.length]
    | _ => []

/-- The tasks of the retries that were announced in a past. -/
def retries (past : Past WorkerWorld Command) : List TaskId :=
  past.flatMap fun (w, h) => (w.announces h).map fun _ => w.tasks.length

@[simp] theorem putOff_append (past past' : Past WorkerWorld Command) :
    putOff (past ++ past') = putOff past ++ putOff past' := List.flatMap_append

@[simp] theorem retries_append (past past' : Past WorkerWorld Command) :
    retries (past ++ past') = retries past ++ retries past' := List.flatMap_append

theorem mem_retries : t ∈ retries past ↔
    ∃ e ∈ past, (∃ k d, (k, d) ∈ e.1.announces e.2) ∧ t = e.1.tasks.length := by
  simp only [retries, List.mem_flatMap, List.mem_map, Prod.exists]
  grind

/-- The keys that are pushed from outside when something happens, at once or by a push that
was put off from outside. -/
def pushesFromOutside (past : Past WorkerWorld Command) (w : WorkerWorld) :
    Happening Command → List String
  | .move t => if t ∈ putOff past then w.fires t else []
  | h => w.pushes h

/-- The keys that are pushed by the retries of a past when something happens. -/
def retried (past : Past WorkerWorld Command) (w : WorkerWorld) : Happening Command → List String
  | .move t => if t ∈ retries past then w.fires t else []
  | _ => []

/-- What may become of a push that is put off. -/
inductive Ages (w : WorkerWorld) : DelayedPush → DelayedPush → Prop where
  | same (p : DelayedPush) : Ages w p p
  | sleeps (millis : Nat) :
      Ages w (.fresh millis) (.sleeping (w.shop.schedule.wakingTime millis))
  | pushes (due : Nat) : Ages w (.sleeping due) .pushed

/-- Where one task has changed and others have come, every other task is what it was. -/
theorem getElem?_set_append {tasks more : List Task} {task : Task} (apart : u ≠ t)
    (known : t < tasks.length) : (tasks.set u task ++ more)[t]? = tasks[t]? := by
  rw [List.getElem?_append_left (by simpa using known), List.getElem?_set_ne apart]

/-- A move changes no task but the one that goes on. -/
theorem turn_other {tasks : List Task} {queue : WorkQueue} {told : History}
    (turn : Turn w u tasks queue told) (apart : u ≠ t) (known : t < w.tasks.length) :
    tasks[t]? = w.tasks[t]? := by
  cases turn with
  | rests _ tasks_eq => rw [tasks_eq]
  | stops _ _ tasks_eq | sleeps _ _ _ tasks_eq | fires _ _ _ _ tasks_eq
  | takes _ _ _ _ _ tasks_eq => rw [tasks_eq, List.getElem?_set_ne apart]
  | concludes _ _ _ _ _ tasks_eq => rw [tasks_eq, getElem?_set_append apart known]

/-- A task that is a put-off push stays one. -/
theorem delayed_after (found : w.tasks[t]? = some (.delayed k p)) (h : Happening Command) :
    ∃ p', (conduct.after w h).tasks[t]? = some (.delayed k p') ∧ Ages w p p' := by
  have known := (List.getElem?_eq_some_iff.1 found).1
  cases h with
  | elapse time => exact ⟨p, found, .same p⟩
  | command c =>
      refine ⟨p, ?_, .same p⟩
      show (w.apply c).tasks[t]? = _
      rw [apply_tasks, List.getElem?_append_left known, found]
  | move u =>
      have turn := (w.turn_run u).1
      show ∃ p', (Cooperative.run w u).tasks[t]? = _ ∧ _
      by_cases here : u = t
      · subst here
        cases turn with
        | rests _ tasks_eq => exact ⟨p, tasks_eq ▸ found, .same p⟩
        | stops asking | takes _ _ _ asking => simp [found] at asking
        | sleeps key millis fresh tasks_eq =>
            cases found.symm.trans fresh
            exact ⟨_, by simp [tasks_eq, known], .sleeps millis⟩
        | fires key due sleeping late tasks_eq =>
            cases found.symm.trans sleeping
            exact ⟨_, by simp [tasks_eq, known], .pushes due⟩
        | concludes _ _ _ _ holds =>
            cases holds with
            | taken asking => simp [found] at asking
            | worked working => simp [found] at working
      · exact ⟨p, (turn_other turn here known).trans found, .same p⟩

/-- A task that is a put-off push was one before, or has come by a command that puts a push
off, or by the announcement of a retry. -/
theorem delayed_before (found : (conduct.after w h).tasks[t]? = some (.delayed k p)) :
    (∃ p', w.tasks[t]? = some (.delayed k p')) ∨
      t ∈ putOff [(w, h)] ∨ t ∈ retries [(w, h)] := by
  cases h with
  | elapse time => exact .inl ⟨p, found⟩
  | command c =>
      change (w.apply c).tasks[t]? = _ at found
      rw [apply_tasks] at found
      obtain known | beyond := Nat.lt_or_ge t w.tasks.length
      · exact .inl ⟨p, List.getElem?_append_left known ▸ found⟩
      · rw [List.getElem?_append_right beyond] at found
        refine .inr (.inl ?_)
        cases c with
        | pushAfter key millis =>
            by_cases none : millis = 0
            · simp [brings, none] at found
            · simp only [brings, if_neg none, List.getElem?_singleton] at found
              have : t = w.tasks.length := by grind
              simp [putOff, none, this]
        | start => simp [brings, List.getElem?_singleton] at found
        | push | close | pass => simp [brings] at found
  | move u =>
      change (Cooperative.run w u).tasks[t]? = _ at found
      have turn := (w.turn_run u).1
      obtain known | beyond := Nat.lt_or_ge t w.tasks.length
      · by_cases here : u = t
        · subst here
          cases turn with
          | rests _ tasks_eq => exact .inl ⟨p, tasks_eq ▸ found⟩
          | sleeps key millis fresh tasks_eq =>
              obtain ⟨rfl, -⟩ : key = k ∧ _ := by simpa [tasks_eq, known] using found
              exact .inl ⟨_, fresh⟩
          | fires key due sleeping late tasks_eq =>
              obtain ⟨rfl, -⟩ : key = k ∧ _ := by simpa [tasks_eq, known] using found
              exact .inl ⟨_, sleeping⟩
          | stops _ _ tasks_eq | takes _ _ _ _ _ tasks_eq => simp [tasks_eq, known] at found
          | concludes _ _ _ _ _ tasks_eq =>
              rw [tasks_eq, List.getElem?_append_left (by simpa using known)] at found
              simp [known] at found
        · exact .inl ⟨p, (turn_other turn here known).symm.trans found⟩
      · cases turn with
        | rests _ tasks_eq | sleeps _ _ _ tasks_eq | fires _ _ _ _ tasks_eq | stops _ _ tasks_eq
        | takes _ _ _ _ _ tasks_eq => simp [tasks_eq, beyond] at found
        | concludes key result held begun holds tasks_eq _ tells =>
            rw [tasks_eq, List.getElem?_append_right (by simpa using beyond)] at found
            refine .inr (.inr ?_)
            cases again : w.shop.ledger.retry? key result with
            | none => simp [again] at found
            | some delay =>
                have announced : w.announces (.move u) = [(key, delay)] := by
                  simp [announces, tells.announced, again]
                have : t = w.tasks.length := by
                  simp only [again, Option.map_some, Option.toList_some,
                    List.getElem?_singleton, List.length_set] at found
                  grind
                simp [retries, announced, this]

/-- Every put-off push has come from outside or is a retry. -/
theorem delayed_of_run (run : conduct.Run (start backoff reconciler cache) past w)
    (found : w.tasks[t]? = some (.delayed k p)) : t ∈ putOff past ∨ t ∈ retries past := by
  induction run generalizing p with
  | start => simp [start] at found
  | next run possible ih =>
      rw [putOff_append, retries_append, List.mem_append, List.mem_append]
      obtain ⟨p', before⟩ | new := delayed_before found
      · exact (ih before).imp .inl .inl
      · exact new.imp .inr .inr

/-- Where a retry is announced, a reconcile of the key has a result, and a task comes that is
to push the key after the delay. -/
theorem of_announces (announced : (k, d) ∈ w.announces h) :
    (∃ result, (k, result) ∈ w.results h) ∧ w.announces h = [(k, d)] ∧
      (conduct.after w h).tasks[w.tasks.length]? = some (retryTask k d) := by
  cases h with
  | elapse time => simp [announces, news_elapse, History.announced] at announced
  | command c =>
      rw [announces, (w.goes_command c).2.announced] at announced
      simp at announced
  | move t =>
      show _ ∧ _ ∧ (Cooperative.run w t).tasks[_]? = _
      cases (w.turn_run t).1 with
      | rests _ _ _ tells | stops _ _ _ _ tells | sleeps _ _ _ _ _ tells
      | fires _ _ _ _ _ _ tells | takes _ _ _ _ _ _ tells =>
          rw [announces, tells.announced] at announced
          simp at announced
      | concludes key result held begun holds tasks_eq _ tells =>
          have all : w.announces (.move t) =
              ((w.shop.ledger.retry? key result).map (key, ·)).toList := tells.announced
          cases again : w.shop.ledger.retry? key result with
          | none => simp [all, again] at announced
          | some delay =>
              obtain ⟨rfl, rfl⟩ : k = key ∧ d = delay := by simpa [all, again] using announced
              refine ⟨⟨result, ?_⟩, by simp [all, again], ?_⟩
              · simp [results, tells.results]
              · rw [tasks_eq, again, List.getElem?_append_right (by simp)]
                simp

/-- Whether a put-off push keeps to a delay of so many milliseconds that began at a time. -/
inductive Due (millis time : Nat) : DelayedPush → Prop where
  | fresh : Due millis time (.fresh millis)
  | sleeping {due : Nat} (late : time + min millis Schedule.longestSleep ≤ due) :
      Due millis time (.sleeping due)
  | pushed : Due millis time .pushed

theorem Due.ages {millis time : Nat} {p' : DelayedPush} (due : Due millis time p)
    (past : time ≤ w.shop.schedule.now) (ages : Ages w p p') : Due millis time p' := by
  cases ages with
  | same => exact due
  | pushes => exact .pushed
  | sleeps millis' =>
      cases due
      exact .sleeping (Nat.add_le_add_right past _)

theorem now_le_after (possible : conduct.Possible past w h) :
    w.shop.schedule.now ≤ (conduct.after w h).shop.schedule.now := by
  cases h with
  | move t => exact Nat.le_of_eq (w.turn_run t).2.now.symm
  | command c => exact Nat.le_of_eq (w.goes_command c).1.now.symm
  | elapse time =>
      show _ ≤ (w.shop.schedule.elapse time).now
      rw [Schedule.elapse_now]
      exact possible

/-- What was announced at a moment holds later: no retry pushes its key before the delay is
over. -/
structure KeepsTime (e : WorkerWorld × Happening Command) (w : WorkerWorld) : Prop where
  now_le : e.1.shop.schedule.now ≤ w.shop.schedule.now
  due : ∀ k d, (k, d) ∈ e.1.announces e.2 → ∃ p,
    w.tasks[e.1.tasks.length]? = some (.delayed k p) ∧ Due d.millisUp e.1.shop.schedule.now p

theorem keepsTime_of_run (run : conduct.Run (start backoff reconciler cache) past w) :
    ∀ e ∈ past, KeepsTime e w := by
  refine run.since (fun _ possible => ⟨now_le_after possible, fun k d announced => ?_⟩)
    fun _ possible keeps => ⟨Nat.le_trans keeps.now_le (now_le_after possible),
      fun k d announced => ?_⟩
  · exact ⟨_, (of_announces announced).2.2, .fresh⟩
  · obtain ⟨p, found, due⟩ := keeps.due k d announced
    obtain ⟨p', found', ages⟩ := delayed_after found _
    exact ⟨p', found', due.ages keeps.now_le ages⟩

/-- A key whose reconcile has begun, and does not begin again, is dirty if it is pushed from
then on and that counts. -/
theorem mem_dirty_iff_pushed
    (run : conduct.Run (start backoff reconciler cache) (earlier ++ (w₀, h₀) :: since) w)
    (begun : k ∈ w₀.begins h₀) (last : ∀ e ∈ since, k ∉ e.1.begins e.2) :
    k ∈ w.shop.queue.dirty ↔
      ∃ e ∈ since, k ∈ e.1.pushes e.2 ∧ e.1.shop.queue.closed = false := by
  generalize all : earlier ++ (w₀, h₀) :: since = past at run
  induction run generalizing since with
  | start => simp at all
  | @next past w h run possible ih =>
      have sound := sound_of_run run
      rw [sound.mem_dirty_after]
      obtain ⟨rfl, same, rfl⟩ | ⟨rest, rfl, rfl⟩ := append_singleton_eq_append_cons.1 all.symm
      · cases same
        simp [(sound.of_begins begun).2.1, begun]
      · rw [ih (fun e there => last e (List.mem_append_left _ there)) rfl]
        have not_begun := last (w, h) (by simp)
        simp [not_begun, or_and_right, exists_or]

/-- Two entries of a list to which something belongs are the same where it is there at most
once in all. -/
theorem eq_of_count_flatMap_le_one {α β : Type} [DecidableEq β] {f : α → List β} {l : List α}
    {x : β} (once : (l.flatMap f).count x ≤ 1) {a b : α} (first : a ∈ l) (second : b ∈ l)
    (there : x ∈ f a) (there' : x ∈ f b) : a = b := by
  obtain ⟨before, later, rfl⟩ := List.append_of_mem first
  have here := List.count_pos_iff.2 there
  simp only [List.flatMap_append, List.flatMap_cons, List.count_append] at once
  obtain early | late := List.mem_append.1 second
  · have := List.count_pos_iff.2 (List.mem_flatMap_of_mem early there')
    omega
  · obtain same | late := List.mem_cons.1 late
    · exact same.symm
    · have := List.count_pos_iff.2 (List.mem_flatMap_of_mem late there')
      omega

theorem finished_of_announces (announced : (k, d) ∈ w.announces h) :
    .finished k ∈ w.deeds h := by
  obtain ⟨result, ended⟩ := (of_announces announced).1
  simp only [deeds, List.mem_append, List.mem_map]
  exact .inl (.inl (.inr ⟨_, ended, rfl⟩))

theorem count_handed_deeds : (w.deeds h).count (.handed k) = (w.begins h).count k := by
  have handed : ((w.begins h).map Deed.handed).count (.handed k) = (w.begins h).count k :=
    List.count_map_of_injective _ _ (fun _ _ same => Deed.handed.inj same) k
  have closing : (closes h).count (.handed k) = 0 := by
    simp only [closes]
    split <;> simp
  have pushed : ((w.pushes h).map Deed.pushed).count (.handed k) = 0 :=
    List.count_eq_zero.2 (by simp)
  have ended : ((w.results h).map (Deed.finished ·.1)).count (.handed k) = 0 :=
    List.count_eq_zero.2 (by simp)
  simp [deeds, List.count_append, handed, closing, pushed, ended]

/-- After a reconcile of a key has begun, and until the next one begins, it has one result at
most, and the key is in flight until then. -/
theorem count_finished_since
    (run : conduct.Run (start backoff reconciler cache) (earlier ++ (w₀, h₀) :: since) w)
    (begun : k ∈ w₀.begins h₀) (last : ∀ e ∈ since, k ∉ e.1.begins e.2) :
    (story ((w₀, h₀) :: since)).count (.finished k) + w.shop.queue.inFlight.count k = 1 := by
  have before := (sound_of_run (run.split rfl).1)
  obtain ⟨alone, -, -, idle⟩ := before.of_begins begun
  have counts := before.story.explained.count_handed k
  have counts' := (sound_of_run run).story.explained.count_handed k
  have none : (story since).count (.handed k) = 0 := by
    refine List.count_eq_zero.2 fun there => ?_
    obtain ⟨e, member, handed⟩ := List.mem_flatMap.1 there
    have := List.count_pos_iff.2 handed
    rw [count_handed_deeds] at this
    exact last e member (List.count_pos_iff.1 this)
  have one : (w₀.deeds h₀).count (.handed k) = 1 := by simp [count_handed_deeds, alone]
  have apart (past past' : Past WorkerWorld Command) :
      story (past ++ past') = story past ++ story past' := List.flatMap_append
  have head : story ((w₀, h₀) :: since) = w₀.deeds h₀ ++ story since := List.flatMap_cons
  rw [apart, head] at counts'
  rw [head]
  simp only [List.count_append, none, one, List.count_eq_zero.2 idle] at counts counts' ⊢
  omega

theorem of_mem_fires (fires : k ∈ w.fires t) : ∃ due,
    w.tasks[t]? = some (.delayed k (.sleeping due)) ∧ due ≤ w.shop.schedule.now := by
  rw [WorkerWorld.fires] at fires
  split at fires
  · rename_i key due found
    split at fires
    · rename_i late
      obtain rfl : k = key := by simpa using fires
      exact ⟨due, found, late⟩
    · simp at fires
  · simp at fires

/-- A put-off push whose time has come was put off from outside, or is the retry of a failure
whose delay is over. -/
theorem origin_of_fires (run : conduct.Run (start backoff reconciler cache) past w)
    (fires : k ∈ w.fires t) : t ∈ putOff past ∨ ∃ e ∈ past, t = e.1.tasks.length ∧
      ∃ d, (k, d) ∈ e.1.announces e.2 ∧
        e.1.shop.schedule.now + min d.millisUp Schedule.longestSleep ≤ w.shop.schedule.now := by
  obtain ⟨due, found, late⟩ := of_mem_fires fires
  refine (delayed_of_run run found).imp_right fun retry => ?_
  obtain ⟨e, member, ⟨k', d, announced⟩, rfl⟩ := mem_retries.1 retry
  obtain ⟨p, found', timed⟩ := (keepsTime_of_run run e member).due k' d announced
  cases found.symm.trans found'
  obtain - | ontime | - := timed
  exact ⟨e, member, rfl, d, announced, Nat.le_trans ontime late⟩

theorem mem_pushes_of_outside (pushed : k ∈ pushesFromOutside past w h) : k ∈ w.pushes h := by
  cases h with
  | move t =>
      simp only [pushesFromOutside] at pushed
      split at pushed
      · exact pushed
      · simp at pushed
  | elapse | command => exact pushed

theorem mem_pushes_of_retried (pushed : k ∈ retried past w h) : k ∈ w.pushes h := by
  cases h with
  | move t =>
      simp only [retried] at pushed
      split at pushed
      · exact pushed
      · simp at pushed
  | elapse | command => simp [retried] at pushed

/-- While an announced delay runs, a key is pushed from outside or by the retry of an earlier
failure. -/
theorem pushes_of_announced
    (run : conduct.Run (start backoff reconciler cache) (earlier ++ (w₀, h₀) :: since) w)
    (begun : k ∈ w₀.begins h₀) (last : ∀ e ∈ since, k ∉ e.1.begins e.2)
    (failed : (w₁, h₁) ∈ (w₀, h₀) :: since) (announced : (k, d) ∈ w₁.announces h₁)
    (early : w.shop.schedule.now <
      w₁.shop.schedule.now + min d.millisUp Schedule.longestSleep)
    {e : WorkerWorld × Happening Command} (member : e ∈ since) (pushed : k ∈ e.1.pushes e.2) :
    k ∈ pushesFromOutside (earlier ++ (w₀, h₀) :: since) e.1 e.2 ∨ k ∈ retried earlier e.1 e.2 := by
  have now := (keepsTime_of_run run e (by simp [member])).now_le
  have once := count_finished_since run begun last
  obtain ⟨v, x⟩ := e
  cases x with
  | elapse time => simp [pushes] at pushed
  | command c => exact .inl pushed
  | move t =>
      obtain ⟨before, later, rfl⟩ := List.append_of_mem member
      have split : earlier ++ (w₀, h₀) :: (before ++ (v, Happening.move t) :: later) =
          (earlier ++ (w₀, h₀) :: before) ++ (v, Happening.move t) :: later := by simp
      have run_then := (run.split split).1
      simp only [pushesFromOutside, retried]
      obtain outside | ⟨e, there, rfl, d', announced', ontime⟩ := origin_of_fires run_then pushed
      · have : t ∈ putOff (earlier ++ (w₀, h₀) :: (before ++ (v, Happening.move t) :: later)) := by
          rw [split, putOff_append]
          exact List.mem_append_left _ outside
        exact .inl (by rwa [if_pos this])
      · obtain old | new := List.mem_append.1 there
        · have : e.1.tasks.length ∈ retries earlier :=
            mem_retries.2 ⟨e, old, ⟨k, d', announced'⟩, rfl⟩
          exact .inr (by rwa [if_pos this])
        · have same : e = (w₁, h₁) :=
            eq_of_count_flatMap_le_one (Nat.le.intro once) (by grind) failed
              (finished_of_announces announced') (finished_of_announces announced)
          subst same
          obtain rfl : d' = d := by simpa [(of_announces announced).2.1] using announced'
          exact absurd (Nat.le_trans ontime now) (Nat.not_le.2 early)

/-- Until the delay is over that was announced for a failed reconcile of a key, no other
reconcile of the key begins unless the key waits for it; and it waits exactly if since the
failed one began it has been pushed, while the queue was open, from outside or by the retry
of an earlier failure. -/
theorem queued_iff_of_announced
    (run : conduct.Run (start backoff reconciler cache) (earlier ++ (w₀, h₀) :: since) w)
    (begun : k ∈ w₀.begins h₀) (last : ∀ e ∈ since, k ∉ e.1.begins e.2)
    (failed : (w₁, h₁) ∈ (w₀, h₀) :: since) (announced : (k, d) ∈ w₁.announces h₁)
    (early : w.shop.schedule.now <
      w₁.shop.schedule.now + min d.millisUp Schedule.longestSleep) :
    (∀ h, k ∈ w.begins h → k ∈ w.shop.queue.queue) ∧
    (k ∈ w.shop.queue.queue ↔ ∃ e ∈ since, e.1.shop.queue.closed = false ∧
      (k ∈ pushesFromOutside (earlier ++ (w₀, h₀) :: since) e.1 e.2 ∨
        k ∈ retried earlier e.1 e.2)) := by
  have sound := sound_of_run run
  have explained := sound.story.explained
  have ended : 0 < (story ((w₀, h₀) :: since)).count (.finished k) :=
    List.count_pos_iff.2 (List.mem_flatMap_of_mem failed (finished_of_announces announced))
  have once := count_finished_since run begun last
  have idle : k ∉ w.shop.queue.inFlight := List.count_eq_zero.1 (by omega)
  have waits : k ∈ w.shop.queue.queue ↔ k ∈ w.shop.queue.dirty :=
    ⟨explained.dirty_of_queued k, fun dirty => (explained.placed k dirty).resolve_right idle⟩
  refine ⟨fun h begins => (sound.of_begins begins).2.2.1, ?_⟩
  rw [waits, mem_dirty_iff_pushed run begun last]
  constructor
  · rintro ⟨e, member, pushed, isOpen⟩
    exact ⟨e, member, isOpen,
      pushes_of_announced run begun last failed announced early member pushed⟩
  · rintro ⟨e, member, isOpen, pushed⟩
    exact ⟨e, member, pushed.elim mem_pushes_of_outside mem_pushes_of_retried, isOpen⟩

/-- A shop whose key `k` fails whenever it is reconciled at first. -/
def failing : WorkerWorld := start ⟨1, 60⟩ (.scripted [("k", [⟨0, .task⟩, ⟨0, .task⟩])]) {}

/-- The key fails, and is pushed from outside before its retry is due. -/
def hurried : List (Happening Command) :=
  [.command .start, .command (.push "k"), .move 0, .move 0, .move 0, .move 1, .elapse 500,
    .command (.push "k")]

theorem queued_iff_of_hurried :
    ∃ earlier w₀ h₀ since w, conduct.Run failing (earlier ++ (w₀, h₀) :: since) w ∧
      "k" ∈ w₀.begins h₀ ∧ (∀ e ∈ since, "k" ∉ e.1.begins e.2) ∧
      ("k", .ofSeconds 1) ∈ w₀.announces h₀ ∧
      w.shop.schedule.now < w₀.shop.schedule.now + 1000 ∧ "k" ∈ w.shop.queue.queue ∧
      ∃ e ∈ since, e.1.shop.queue.closed = false ∧
        ("k" ∈ pushesFromOutside (earlier ++ (w₀, h₀) :: since) e.1 e.2 ∨
          "k" ∈ retried earlier e.1 e.2) := by
  have begun : conduct.Run failing [] failing := .start
  have run := (begun.follow hurried (by decide +kernel)).focus
    (show 2 < ((conduct.follow [] failing hurried).get _).1.length by decide +kernel)
  refine ⟨_, _, _, _, _, run, by decide +kernel, by decide +kernel, by decide +kernel,
    by decide +kernel, by decide +kernel, ?_⟩
  exact (queued_iff_of_announced run (by decide +kernel) (by decide +kernel) List.mem_cons_self
    (d := .ofSeconds 1) (by decide +kernel) (by decide +kernel)).2.1 (by decide +kernel)

/-- It fails again, and the retry of its first failure comes before that of the second. -/
def overtaken : List (Happening Command) :=
  hurried ++ [.move 0, .move 0, .move 2, .elapse 1000, .move 1]

/-- The delay that is announced for a failure may be cut short: the key is reconciled again
before it is over, though nobody has pushed it from outside since the failed reconcile
began. -/
theorem begins_of_overtaken :
    ∃ earlier w₀ h₀ since w, conduct.Run failing (earlier ++ (w₀, h₀) :: since) w ∧
      "k" ∈ w₀.begins h₀ ∧ (∀ e ∈ since, "k" ∉ e.1.begins e.2) ∧
      ("k", .ofSeconds 1) ∈ w₀.announces h₀ ∧
      (∀ e ∈ since, "k" ∉ pushesFromOutside (earlier ++ (w₀, h₀) :: since) e.1 e.2) ∧
      conduct.Possible (earlier ++ (w₀, h₀) :: since) w (.move 0) ∧ "k" ∈ w.begins (.move 0) ∧
      w.shop.schedule.now < w₀.shop.schedule.now + (Duration.ofSeconds 1).millisUp := by
  have begun : conduct.Run failing [] failing := .start
  have run := (begun.follow overtaken (by decide +kernel)).focus
    (show 8 < ((conduct.follow [] failing overtaken).get _).1.length by decide +kernel)
  refine ⟨_, _, _, _, _, run, ?_⟩
  decide +kernel

end ResourceWatch.WorkerWorld
