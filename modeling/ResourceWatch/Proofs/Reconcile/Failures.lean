import Mathlib.Data.List.Induction
import ResourceWatch.Proofs.Reconcile.World

/-!
# Failures in a row

The ledger counts, for each key on its own, the failures that may pass since the last result
that was none, whatever becomes of other keys meanwhile. The count has fixed room.

A reconcile that has a result reports its key done. Where the result is a failure that may
pass, one task comes that is to push the key again after the delay that the failures in a row
ask for; after any other result none comes.
-/

namespace ResourceWatch

/-- Whole seconds are so many milliseconds. -/
theorem Duration.millisUp_ofSeconds (n : Nat) : (ofSeconds n).millisUp = 1000 * n := by
  simp only [ofSeconds, millisUp]
  omega

namespace Backoff

theorem grow_pos {most : Nat} (some : 0 < most) (steps previous : Nat) {current : Nat}
    (now : 0 < current) : 0 < grow most steps previous current := by
  induction steps generalizing previous current with
  | zero => exact now
  | succ steps ih =>
      have next : 0 < Nat.min (Nat.min (previous + current) maxSeconds) most :=
        Nat.lt_min.2 ⟨Nat.lt_min.2 ⟨by omega, by decide⟩, some⟩
      simp only [grow]
      split
      · exact next
      · exact ih current next

theorem delaySeconds_pos (least most : Duration) (failures : Nat) :
    0 < (ofDurations least most).delaySeconds failures := by
  have one : 0 < (ofDurations least most).least :=
    Nat.lt_of_lt_of_le Nat.one_pos (Nat.le_max_left ..)
  exact grow_pos (Nat.lt_of_lt_of_le one (Nat.le_max_left ..)) _ _ one

/-- A retry is never due at once. -/
theorem millisUp_delay_pos (least most : Duration) (failures : Nat) :
    0 < ((ofDurations least most).delay failures).millisUp := by
  have := delaySeconds_pos least most failures
  rw [delay, Duration.millisUp_ofSeconds]
  omega

end Backoff

namespace RetryLedger

variable {l : RetryLedger} {key k : String} {result : ReconcileResult}

theorem count_reset : (l.reset key).count k = if key = k then 0 else l.count k := by
  simp only [reset, count, List.find?_filter]
  split
  · rename_i same
    subst same
    rw [List.find?_eq_none.2 (by simp)]
    rfl
  · rename_i other
    congr 3
    funext entry
    by_cases same : entry.1 = k
    · simp [same, Ne.symm other]
    · simp [same]

theorem count_record :
    (l.record key).count k = if key = k then min (l.count k + 1) maxFailures else l.count k := by
  split
  · rename_i same
    subst same
    simp [record, count]
  · rename_i other
    have rest : (l.reset key).count k = _ := count_reset
    rw [if_neg other] at rest
    simpa [record, reset, count, other] using rest

@[simp] theorem after_backoff : (l.after key result).backoff = l.backoff := by
  rw [after]
  split <;> rfl

end RetryLedger

/-- How many results of a key in a row, up to the last one, are failures that may pass. -/
def streak (k : String) (results : List (String × ReconcileResult)) : Nat :=
  ((results.filter (·.1 == k)).reverse.takeWhile fun r => (retryable? r.2).isSome).length

section Streak

variable {k key : String} {results : List (String × ReconcileResult)} {result : ReconcileResult}

theorem streak_append : streak k (results ++ [(key, result)]) =
    if key = k then if (retryable? result).isSome then streak k results + 1 else 0
    else streak k results := by
  by_cases same : key = k
  · cases again : retryable? result <;>
      simp [streak, List.filter_append, same, again]
  · simp [streak, List.filter_append, same]

/-- The ledger counts the failures in a row, as far as there is room. -/
theorem RetryLedger.count_results (backoff : Backoff)
    (results : List (String × ReconcileResult)) (k : String) :
    (results.foldl (fun (l : RetryLedger) r => l.after r.1 r.2) { backoff }).count k =
      min (streak k results) maxFailures := by
  induction results using List.reverseRecOn with
  | nil => simp [count, streak]
  | append_singleton results r ih =>
      obtain ⟨key, result⟩ := r
      rw [List.foldl_append, List.foldl_cons, List.foldl_nil, streak_append, after]
      by_cases same : key = k
      · cases again : retryable? result with
        | none => simp [count_reset, same]
        | some e =>
            simp only [count_record, same, ih, Option.isSome_some, if_true]
            omega
      · cases again : retryable? result with
        | none => simp [count_reset, same, ih]
        | some e => simp [count_record, same, ih]

end Streak

namespace WorkerWorld

open WorkQueue

variable {w : WorkerWorld} {past : Past WorkerWorld Command} {t : TaskId} {k : String}
  {result : ReconcileResult} {h : Happening Command} {backoff : Backoff}
  {reconciler : Reconciler} {cache : Cache}

/-- Whatever happens, more may be told, and the ledger is entered what is told. -/
theorem ledger_after (w : WorkerWorld) (h : Happening Command) :
    (conduct.after w h).shop.history = w.shop.history ++ w.news h ∧
      (conduct.after w h).shop.ledger =
        (w.news h).results.foldl (fun l r => l.after r.1 r.2) w.shop.ledger := by
  cases h with
  | move t => exact ⟨(w.turn_run t).2.history, (w.turn_run t).2.ledger⟩
  | elapse time =>
      rw [news_elapse]
      exact ⟨(List.append_nil _).symm, rfl⟩
  | command c => exact ⟨(w.goes_command c).1.history, (w.goes_command c).1.ledger⟩

theorem results_after (w : WorkerWorld) (h : Happening Command) :
    (conduct.after w h).shop.history.results = w.shop.history.results ++ w.results h := by
  rw [(ledger_after w h).1]
  exact List.filterMap_append

/-- The ledger is what the results on record have made of it. -/
theorem ledger_of_run (run : conduct.Run (start backoff reconciler cache) past w) :
    w.shop.ledger = w.shop.history.results.foldl (fun l r => l.after r.1 r.2) { backoff } := by
  induction run with
  | start => rfl
  | @next past w h run possible ih =>
      rw [(ledger_after w h).2, results_after, List.foldl_append, ← ih]
      rfl

theorem backoff_of_run (run : conduct.Run (start backoff reconciler cache) past w) :
    w.shop.ledger.backoff = backoff := by
  rw [ledger_of_run run]
  generalize w.shop.history.results = results
  induction results using List.reverseRecOn with
  | nil => rfl
  | append_singleton results r ih => simp [List.foldl_append, ih]

/-- The ledger counts the failures in a row of each key. -/
theorem count_of_run (run : conduct.Run (start backoff reconciler cache) past w) (k : String) :
    w.shop.ledger.count k = min (streak k w.shop.history.results) maxFailures := by
  rw [ledger_of_run run, RetryLedger.count_results]

/-- The tasks that come when something happens. -/
def recruits (w : WorkerWorld) (h : Happening Command) : List Task :=
  (conduct.after w h).tasks.drop w.tasks.length

/-- What a result of a key amounts to: it is the only one, the key is reported done, and a
task comes that is to push it again where a delay is announced. -/
theorem of_results (run : conduct.Run (start backoff reconciler cache) past w)
    (result_told : (k, result) ∈ w.results h) :
    w.results h = [(k, result)] ∧ k ∉ (conduct.after w h).shop.queue.inFlight ∧
      w.announces h = ((w.shop.ledger.retry? k result).map (k, ·)).toList ∧
      w.recruits h = ((w.shop.ledger.retry? k result).map (retryTask k)).toList := by
  have consistent := (sound_of_run run).story.explained.toConsistent
  cases h with
  | elapse time => simp [results, news_elapse, History.results] at result_told
  | command c =>
      rw [results, (w.goes_command c).2.results] at result_told
      simp at result_told
  | move t =>
      rw [recruits]
      show _ ∧ k ∉ (Cooperative.run w t).shop.queue.inFlight ∧
        _ ∧ (Cooperative.run w t).tasks.drop _ = _
      cases (w.turn_run t).1 with
      | rests _ _ _ tells | stops _ _ _ _ tells | sleeps _ _ _ _ _ tells
      | fires _ _ _ _ _ _ tells | takes _ _ _ _ _ _ tells =>
          rw [results, tells.results] at result_told
          simp at result_told
      | concludes key result' held begun holds tasks_eq queue_eq tells =>
          have all : w.results (.move t) = [(key, result')] := tells.results
          obtain ⟨rfl, rfl⟩ : k = key ∧ result = result' := by simpa [all] using result_told
          have once : held.inFlight.Nodup := by
            cases holds with
            | taken asking taken => exact (consistent.take? taken).inFlight_nodup
            | worked working late => exact consistent.inFlight_nodup
          refine ⟨all, ?_, tells.announced, ?_⟩
          · rw [queue_eq, finish_inFlight]
            exact once.not_mem_erase
          · rw [tasks_eq, List.drop_left' List.length_set]

/-- The delay of a retry is what the failures in a row ask for. -/
theorem retry?_of_run (run : conduct.Run (start backoff reconciler cache) past w)
    (told : w.results h = [(k, result)]) :
    w.shop.ledger.retry? k result = (retryable? result).map fun _ =>
      backoff.delay (min (streak k (conduct.after w h).shop.history.results) maxFailures) := by
  cases again : retryable? result with
  | none => simp [RetryLedger.retry?, again]
  | some e =>
      have counted := count_of_run run k
      have recorded : (w.shop.ledger.record k).count k =
          min (streak k (conduct.after w h).shop.history.results) maxFailures := by
        rw [results_after, told, streak_append, RetryLedger.count_record]
        simp only [if_true, again, Option.isSome_some, counted]
        omega
      have bounds : (w.shop.ledger.record k).backoff = backoff := backoff_of_run run
      simp [RetryLedger.retry?, again, RetryLedger.delayOf, recorded, bounds]

end WorkerWorld

end ResourceWatch
