import ResourceWatch.Proofs.WorkQueue.Desk
import ResourceWatch.Reconcile.Workshop

/-!
# What a worker does to its workshop

A worker takes a key and begins to reconcile it, or ends a reconcile that has a result. An
end is recorded, entered into the ledger, and reported to the queue. A failure that may
pass is announced, and its key is to be pushed again after the announced delay; after any
other result nothing is to be pushed.
-/

namespace ResourceWatch

/-- The failure that a result reports, if another attempt can help: it cannot where the key
will never be read. -/
def retryable? : ReconcileResult → Option ControllerError
  | .ok _ => none
  | .error (.watch (.malformedKey _ _)) => none
  | .error e => some e

namespace RetryLedger

def after (l : RetryLedger) (key : String) (result : ReconcileResult) : RetryLedger :=
  match retryable? result with
  | none => l.reset key
  | some _ => l.record key

/-- The delay after which a key is to be pushed again because of a result. -/
def retry? (l : RetryLedger) (key : String) (result : ReconcileResult) : Option Duration :=
  (retryable? result).map fun _ => (l.record key).delayOf key

end RetryLedger

namespace History

/-- The keys whose reconcile began. -/
def begun (h : History) : List String :=
  h.filterMap fun | .began key _ => some key | _ => none

def results (h : History) : List (String × ReconcileResult) :=
  h.filterMap fun | .reconciled key result _ => some (key, result) | _ => none

/-- The keys that are to be pushed again, each with the delay that was announced. -/
def announced (h : History) : List (String × Duration) :=
  h.filterMap fun | .logged (.retrying key _ _ delay) => some (key, delay) | _ => none

/-- What a record tells of reconciles: which began, which had a result, and which are to be
tried again. -/
structure Tells (h : History) (begun : List String) (results : List (String × ReconcileResult))
    (announced : List (String × Duration)) : Prop where
  begun : h.begun = begun
  results : h.results = results
  announced : h.announced = announced

theorem Tells.append {h h' : History} {begun begun' : List String}
    {results results' : List (String × ReconcileResult)}
    {announced announced' : List (String × Duration)} (first : h.Tells begun results announced)
    (second : h'.Tells begun' results' announced') :
    Tells (h ++ h') (begun ++ begun') (results ++ results') (announced ++ announced') where
  begun := by rw [← first.begun, ← second.begun]; exact List.filterMap_append
  results := by rw [← first.results, ← second.results]; exact List.filterMap_append
  announced := by rw [← first.announced, ← second.announced]; exact List.filterMap_append

end History

/-- What a reconciler tells of the object that it looks at is about that object alone. -/
theorem Cache.tells_observe (c : Cache) (plan : WatchPlan) (key : String) :
    History.Tells ((c.observe plan key).2.map .logged) [] [] [] := by
  rw [observe]
  split
  · exact ⟨rfl, rfl, rfl⟩
  · dsimp only
    split <;> exact ⟨rfl, rfl, rfl⟩

namespace Workshop

theorem foldl_log (s : Workshop) (events : List LogEvent) :
    events.foldl log s = { s with history := s.history ++ events.map .logged } := by
  induction events generalizing s with
  | nil => simp
  | cons e events ih => simp [ih, log, note, Desk.note]

/-- Entering a result changes the ledger and is told in the log, which announces the delay
where the key is to be pushed again. -/
theorem enter_eq (s : Workshop) (key : String) (result : ReconcileResult) :
    ∃ lines : History, s.enter key result =
        ({ s with ledger := s.ledger.after key result, history := s.history ++ lines },
          s.ledger.retry? key result) ∧
      lines.Tells [] [] ((s.ledger.retry? key result).map (key, ·)).toList := by
  simp only [enter]
  split
  · exact ⟨[], by simp [RetryLedger.after, RetryLedger.retry?, retryable?], ⟨rfl, rfl, rfl⟩⟩
  · rename_i k fault
    exact ⟨[.logged (.givingUp key (.malformedKey k fault))], rfl, ⟨rfl, rfl, rfl⟩⟩
  · rename_i e readable
    have again : retryable? (.error e) = some e := by
      rw [retryable?]
      exact fun k fault malformed => readable k fault malformed
    simp only [RetryLedger.after, RetryLedger.retry?, again]
    exact ⟨[.logged (.retrying key ((s.ledger.record key).count key) e
      ((s.ledger.record key).delayOf key))], rfl, ⟨rfl, rfl, rfl⟩⟩

/-- Beginning a reconcile is recorded, and changes nothing but the record and the
reconciler. -/
theorem begin_eq (s : Workshop) (key : String) :
    ∃ (lines : History) (reconciler : Reconciler), (s.begin key).1 =
        { s with reconciler, history := s.history ++ lines } ∧ lines.Tells [key] [] [] := by
  rw [begin]
  dsimp only
  split
  · exact ⟨_, _, rfl, ⟨rfl, rfl, rfl⟩⟩
  · rename_i plan observing
    refine ⟨.began key s.schedule.now :: (s.cache.observe plan key).2.map .logged, s.reconciler,
      ?_, ?_⟩
    · rw [foldl_log]
      simp [note, Desk.note]
    · have begins : History.Tells [.began key s.schedule.now] [key] [] [] := ⟨rfl, rfl, rfl⟩
      exact begins.append (s.cache.tells_observe plan key)
  · exact ⟨_, _, rfl, ⟨rfl, rfl, rfl⟩⟩

end Workshop

namespace Worker

/-- The end of a reconcile: its result is recorded and entered into the ledger, a delay is
announced where the key is to be pushed again, and the key is reported done. -/
structure Settled (s : Workshop) (key : String) (result : ReconcileResult) (move : Move) :
    Prop where
  worker : move.worker = .asking
  progress : move.progress = .goesOn
  queue : move.workshop.queue = (s.queue.finish key).1
  ledger : move.workshop.ledger = s.ledger.after key result
  now : move.workshop.schedule.now = s.schedule.now
  retry : move.retry = (s.ledger.retry? key result).map (key, ·.millisUp)
  history : ∃ lines : History, move.workshop.history = s.history ++ lines ∧
    lines.Tells [] [(key, result)] ((s.ledger.retry? key result).map (key, ·)).toList

theorem settled (s : Workshop) (key : String) (result : ReconcileResult) (fresh : TaskId) :
    Settled s key result (settle s key result fresh) := by
  obtain ⟨lines, entered, told⟩ :=
    (s.note (.reconciled key result s.schedule.now)).enter_eq key result
  have same : (s.note (.reconciled key result s.schedule.now)).ledger = s.ledger := rfl
  rw [same] at entered told
  have recorded : History.Tells [.reconciled key result s.schedule.now] [] [(key, result)] [] :=
    ⟨rfl, rfl, rfl⟩
  simp only [settle]
  split
  · rename_i s' ended
    obtain ⟨rfl, none⟩ := Prod.mk.inj (entered.symm.trans ended)
    exact
      { worker := rfl
        progress := rfl
        queue := Desk.finish_queue
        ledger := rfl
        now := (Desk.serves_finish _ key).schedule.now
        retry := by rw [none]; rfl
        history := ⟨_, Desk.finish_history.trans (List.append_assoc ..), recorded.append told⟩ }
  · rename_i s' delay ended
    obtain ⟨rfl, some⟩ := Prod.mk.inj (entered.symm.trans ended)
    exact
      { worker := rfl
        progress := rfl
        queue := Desk.finish_queue
        ledger := rfl
        now := (Desk.serves_finish _ key).schedule.now.trans (Schedule.wake_now _ fresh)
        retry := by rw [some]; rfl
        history := ⟨_, Desk.finish_history.trans (List.append_assoc ..), recorded.append told⟩ }

end Worker

end ResourceWatch
