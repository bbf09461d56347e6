import ResourceWatch.Proofs.WorkQueue.Consistency

/-!
# What is done to a work queue

A story lists what was done to a work queue: pushes, hand-outs, reports of keys
done, and the closing. Whoever reports a key done was handed it, and reports it
once for each time.

`WorkQueue.Explained` reads the three collections off the story. The keys in
flight are those handed out and not reported done since; a key in flight is dirty
exactly if a push that counted came after its hand-out. No key is handed out while
it is in flight, and no push that counts is forgotten, however many others of its
key came between.
-/

namespace ResourceWatch.WorkQueue

/-- What is done to a work queue. -/
inductive Deed where
  /-- A key is pushed, whether that counts or not. -/
  | pushed (key : String)
  /-- A key is handed out. -/
  | handed (key : String)
  /-- A key is reported done. -/
  | finished (key : String)
  /-- The queue is closed. -/
  | closed
deriving DecidableEq, Repr

/-- Whether a key was handed out more often than it was reported done. -/
def Outstanding (deeds : List Deed) (key : String) : Prop :=
  deeds.count (.finished key) < deeds.count (.handed key)

instance (deeds : List Deed) (key : String) : Decidable (Outstanding deeds key) :=
  inferInstanceAs (Decidable (_ < _))

/-- Whether a push of a key came after its last hand-out, and before any
closing. -/
def PushedSince (deeds : List Deed) (key : String) : Prop :=
  ∃ before later, deeds = before ++ .pushed key :: later ∧
    .handed key ∈ before ∧ .handed key ∉ later ∧ .closed ∉ before

/-- The queues that an empty one can become, with what was done to it. -/
inductive Story : List Deed → WorkQueue → Prop where
  | start : Story [] {}
  | push {deeds : List Deed} {q : WorkQueue} (story : Story deeds q) (key : String) :
      Story (deeds ++ [.pushed key]) (q.push key).1
  | take {deeds : List Deed} {q q' : WorkQueue} {key : String} (story : Story deeds q)
      (taken : q.take? = some (key, q')) : Story (deeds ++ [.handed key]) q'
  | finish {deeds : List Deed} {q : WorkQueue} {key : String} (story : Story deeds q)
      (out : Outstanding deeds key) : Story (deeds ++ [.finished key]) (q.finish key).1
  | close {deeds : List Deed} {q : WorkQueue} (story : Story deeds q) :
      Story (deeds ++ [.closed]) q.close

/-- What a story tells about the collections of its queue. -/
structure Explained (deeds : List Deed) (q : WorkQueue) : Prop extends Consistent q where
  closed_iff : q.closed = true ↔ .closed ∈ deeds
  /-- The keys in flight are those handed out and not reported done since. -/
  count_handed : ∀ k, deeds.count (.handed k) = deeds.count (.finished k) + q.inFlight.count k
  /-- A key in flight is dirty if it was pushed since its hand-out. -/
  dirty_iff : ∀ k ∈ q.inFlight, k ∈ q.dirty ↔ PushedSince deeds k
  /-- No key is handed out while it is in flight. -/
  single : ∀ before later k, deeds = before ++ .handed k :: later → ¬ Outstanding before k
  /-- A push that counts leaves its key dirty until the key is handed out. -/
  kept : ∀ before later k, deeds = before ++ .pushed k :: later → .closed ∉ before →
    k ∈ q.dirty ∨ .handed k ∈ later

variable {deeds : List Deed} {q q' : WorkQueue} {key : String}

theorem pushedSince_append {d : Deed} :
    PushedSince (deeds ++ [d]) key ↔
      (d = .pushed key ∧ .handed key ∈ deeds ∧ .closed ∉ deeds) ∨
        (PushedSince deeds key ∧ d ≠ .handed key) := by
  constructor
  · rintro ⟨before, later, split, handed, since, early⟩
    obtain ⟨rfl, rfl, rfl⟩ | ⟨rest, rfl, rfl⟩ := append_singleton_eq_append_cons.1 split
    · exact .inl ⟨rfl, handed, early⟩
    · refine .inr ⟨⟨before, rest, rfl, handed, fun h => since (by simp [h]), early⟩, ?_⟩
      rintro rfl
      simp at since
  · rintro (⟨rfl, handed, early⟩ | ⟨⟨before, later, rfl, handed, since, early⟩, other⟩)
    · exact ⟨deeds, [], rfl, handed, by simp, early⟩
    · exact ⟨before, later ++ [d], by simp, handed, by simp [since, Ne.symm other], early⟩

namespace Explained

variable (h : Explained deeds q)
include h

/-- The keys in flight, as a set. -/
theorem mem_inFlight_iff : key ∈ q.inFlight ↔ Outstanding deeds key := by
  have count := h.count_handed key
  rw [← List.count_pos_iff, Outstanding]
  omega

theorem handed_of_inFlight (flight : key ∈ q.inFlight) : .handed key ∈ deeds := by
  have := h.mem_inFlight_iff.1 flight
  exact List.count_pos_iff.1 (Nat.zero_lt_of_lt this)

/-- The dirty keys are those that wait, and those in flight that were pushed
since their hand-out. -/
theorem mem_dirty_iff :
    key ∈ q.dirty ↔ key ∈ q.queue ∨ (key ∈ q.inFlight ∧ PushedSince deeds key) := by
  constructor
  · intro dirty
    exact (h.placed key dirty).imp_right fun flight => ⟨flight, (h.dirty_iff key flight).1 dirty⟩
  · rintro (waits | ⟨flight, since⟩)
    · exact h.dirty_of_queued key waits
    · exact (h.dirty_iff key flight).2 since

theorem push (key : String) : Explained (deeds ++ [.pushed key]) (q.push key).1 where
  toConsistent := h.toConsistent.push key
  closed_iff := by simp [h.closed_iff]
  count_handed k := by simpa using h.count_handed k
  dirty_iff := by
    intro k flight
    rw [push_inFlight] at flight
    have handed := h.handed_of_inFlight flight
    rw [mem_push_dirty, pushedSince_append, h.dirty_iff k flight]
    have isOpen : q.closed = false ↔ .closed ∉ deeds := by
      rw [← h.closed_iff]
      simp
    rw [isOpen]
    constructor
    · rintro (since | ⟨rfl, early⟩)
      · exact .inr ⟨since, by simp⟩
      · exact .inl ⟨rfl, handed, early⟩
    · rintro (⟨same, -, early⟩ | ⟨since, -⟩)
      · exact .inr ⟨(Deed.pushed.inj same).symm, early⟩
      · exact .inl since
  single := by
    intro before later k split
    obtain ⟨-, ⟨⟩, -⟩ | ⟨rest, -, same⟩ := append_singleton_eq_append_cons.1 split
    exact h.single before rest k same
  kept := by
    intro before later k split early
    obtain ⟨rfl, same, rfl⟩ | ⟨rest, rfl, same⟩ := append_singleton_eq_append_cons.1 split
    · cases same
      have isOpen : q.closed = false := by
        simpa using mt h.closed_iff.1 early
      exact .inl (mem_push_dirty.2 (.inr ⟨rfl, isOpen⟩))
    · obtain dirty | handed := h.kept before rest k same early
      · exact .inl (mem_push_dirty.2 (.inl dirty))
      · exact .inr (List.mem_append_left _ handed)

theorem take (taken : q.take? = some (key, q')) : Explained (deeds ++ [.handed key]) q' where
  toConsistent := h.toConsistent.take? taken
  closed_iff := by
    obtain ⟨rest, -, rfl⟩ := take?_eq_some.1 taken
    simp [h.closed_iff]
  count_handed k := by
    have count := h.count_handed k
    rw [h.take?_inFlight taken]
    by_cases same : key = k
    · subst same
      simp
      omega
    · simpa [List.count_append, List.count_singleton, same] using count
  dirty_iff := by
    intro k flight
    rw [h.mem_take?_dirty taken, pushedSince_append]
    by_cases same : key = k
    · subst same
      simp
    · have before : k ∈ q.inFlight := by
        simpa [h.take?_inFlight taken, Ne.symm same] using flight
      simp [h.dirty_iff k before, same, Ne.symm same]
  single := by
    intro before later k split
    obtain ⟨rfl, same, -⟩ | ⟨rest, -, same⟩ := append_singleton_eq_append_cons.1 split
    · cases same
      exact fun out => (h.of_take? taken).2.2 (h.mem_inFlight_iff.2 out)
    · exact h.single before rest k same
  kept := by
    intro before later k split early
    obtain ⟨-, ⟨⟩, -⟩ | ⟨rest, rfl, same⟩ := append_singleton_eq_append_cons.1 split
    by_cases e : key = k
    · exact .inr (by simp [e])
    · obtain dirty | handed := h.kept before rest k same early
      · exact .inl ((h.mem_take?_dirty taken).2 ⟨Ne.symm e, dirty⟩)
      · exact .inr (List.mem_append_left _ handed)

theorem finish (out : Outstanding deeds key) :
    Explained (deeds ++ [.finished key]) (q.finish key).1 where
  toConsistent := h.toConsistent.finish (h.mem_inFlight_iff.2 out)
  closed_iff := by simp [h.closed_iff]
  count_handed k := by
    have count := h.count_handed k
    have flight := List.count_pos_iff.2 (h.mem_inFlight_iff.2 out)
    by_cases same : key = k
    · subst same
      simp [List.count_append] at count ⊢
      omega
    · simpa [List.count_append, List.count_singleton, same, List.count_erase_of_ne (Ne.symm same)]
        using count
  dirty_iff := by
    intro k flight
    rw [finish_inFlight] at flight
    simp [pushedSince_append, h.dirty_iff k (List.mem_of_mem_erase flight)]
  single := by
    intro before later k split
    obtain ⟨-, ⟨⟩, -⟩ | ⟨rest, -, same⟩ := append_singleton_eq_append_cons.1 split
    exact h.single before rest k same
  kept := by
    intro before later k split early
    obtain ⟨-, ⟨⟩, -⟩ | ⟨rest, rfl, same⟩ := append_singleton_eq_append_cons.1 split
    simpa using (h.kept before rest k same early)

theorem close : Explained (deeds ++ [.closed]) q.close where
  toConsistent := h.toConsistent.close
  closed_iff := by simp [WorkQueue.close]
  count_handed k := by simpa [WorkQueue.close] using h.count_handed k
  dirty_iff := by
    intro k flight
    simpa [WorkQueue.close, pushedSince_append] using h.dirty_iff k flight
  single := by
    intro before later k split
    obtain ⟨-, ⟨⟩, -⟩ | ⟨rest, -, same⟩ := append_singleton_eq_append_cons.1 split
    exact h.single before rest k same
  kept := by
    intro before later k split early
    obtain ⟨-, ⟨⟩, -⟩ | ⟨rest, rfl, same⟩ := append_singleton_eq_append_cons.1 split
    simpa [WorkQueue.close] using (h.kept before rest k same early)

end Explained

theorem Story.explained (story : Story deeds q) : Explained deeds q := by
  induction story with
  | start => exact ⟨consistent_empty, by simp, by simp, by simp, by simp, by simp⟩
  | push _ key ih => exact ih.push key
  | take _ taken ih => exact ih.take taken
  | finish _ out ih => exact ih.finish out
  | close _ ih => exact ih.close

end ResourceWatch.WorkQueue
