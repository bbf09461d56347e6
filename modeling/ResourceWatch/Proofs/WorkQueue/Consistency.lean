import Mathlib.Data.List.Nodup
import ResourceWatch.Proofs.Runs
import ResourceWatch.WorkQueue.Basic

/-!
# Consistency of the work queue

The queue keeps three collections of keys, and `WorkQueue.Consistent` says how
they fit together: no collection holds a key twice, a key that waits is dirty and
not in flight, and a dirty key either waits or is in flight. Every operation
keeps this, provided that only keys in flight are reported done.
-/

namespace ResourceWatch.WorkQueue

variable {q q' : WorkQueue} {k key : String}

@[simp] theorem push_inFlight : (q.push key).1.inFlight = q.inFlight := by
  rw [push]
  dsimp only
  split_ifs <;> rfl

@[simp] theorem push_closed : (q.push key).1.closed = q.closed := by
  rw [push]
  dsimp only
  split_ifs <;> rfl

theorem mem_push_dirty :
    k ∈ (q.push key).1.dirty ↔ k ∈ q.dirty ∨ (k = key ∧ q.closed = false) := by
  rw [push]
  dsimp only
  split_ifs with ignored deferred
  · simp only [Bool.or_eq_true, List.contains_iff_mem] at ignored
    refine ⟨.inl, ?_⟩
    rintro (h | ⟨rfl, h⟩)
    · exact h
    · exact ignored.resolve_left (by simp [h])
  all_goals
    have hopen : q.closed = false := by simp_all
    simp [hopen]

/-- A key joins the queue exactly if it is told to be queued. -/
theorem push_queue (q : WorkQueue) (key : String) :
    (q.push key).1.queue =
      match (q.push key).2 with
      | .queued => q.queue ++ [key]
      | .deferred | .ignored => q.queue := by
  rw [push]
  dsimp only
  split_ifs <;> rfl

/-- A key is handed out exactly if it is the first that waits. -/
theorem take?_eq_some :
    q.take? = some (key, q') ↔ ∃ rest, q.queue = key :: rest ∧ q' = { q with
      queue := rest
      dirty := q.dirty.erase key
      inFlight := if q.inFlight.contains key then q.inFlight else q.inFlight ++ [key] } := by
  rw [take?]
  cases hq : q.queue with
  | nil => simp
  | cons first rest =>
      simp only [Option.some.injEq, Prod.mk.injEq, List.cons.injEq]
      constructor
      · rintro ⟨rfl, rfl⟩
        exact ⟨rest, ⟨rfl, rfl⟩, rfl⟩
      · rintro ⟨rest', ⟨rfl, rfl⟩, rfl⟩
        exact ⟨rfl, rfl⟩

theorem take?_eq_none : q.take? = none ↔ q.queue = [] := by
  rw [take?]
  cases q.queue <;> simp

/-- A key that is done joins the queue exactly if it is told to do so again. -/
theorem finish_queue (q : WorkQueue) (key : String) :
    (q.finish key).1.queue = if (q.finish key).2 then q.queue ++ [key] else q.queue := by
  rw [finish]
  dsimp only
  split <;> rfl

@[simp] theorem finish_dirty : (q.finish key).1.dirty = q.dirty := by
  rw [finish]
  dsimp only
  split_ifs <;> rfl

@[simp] theorem finish_inFlight : (q.finish key).1.inFlight = q.inFlight.erase key := by
  rw [finish]
  dsimp only
  split_ifs <;> rfl

@[simp] theorem finish_closed : (q.finish key).1.closed = q.closed := by
  rw [finish]
  dsimp only
  split_ifs <;> rfl

/-- The three collections of keys fit together. -/
structure Consistent (q : WorkQueue) : Prop where
  queue_nodup : q.queue.Nodup
  dirty_nodup : q.dirty.Nodup
  inFlight_nodup : q.inFlight.Nodup
  /-- A key that waits is not in flight. -/
  apart : ∀ k ∈ q.queue, k ∉ q.inFlight
  /-- A key that waits is dirty. -/
  dirty_of_queued : ∀ k ∈ q.queue, k ∈ q.dirty
  /-- A dirty key waits, or is in flight. -/
  placed : ∀ k ∈ q.dirty, k ∈ q.queue ∨ k ∈ q.inFlight

theorem consistent_empty : Consistent {} := by
  constructor <;> simp

namespace Consistent

variable (h : q.Consistent)
include h

theorem push (key : String) : (q.push key).1.Consistent := by
  rw [WorkQueue.push]
  dsimp only
  split_ifs with ignored deferred
  · exact h
  · have clean : key ∉ q.dirty := by simp_all
    exact
      { queue_nodup := h.queue_nodup
        dirty_nodup := h.dirty_nodup.append (List.nodup_singleton key) (by simpa using clean)
        inFlight_nodup := h.inFlight_nodup
        apart := h.apart
        dirty_of_queued := fun k hk => List.mem_append_left _ (h.dirty_of_queued k hk)
        placed := by
          intro k hk
          obtain hk | hk := List.mem_append.1 hk
          · exact h.placed k hk
          · exact .inr (by simp_all) }
  · have clean : key ∉ q.dirty := by simp_all
    have still : key ∉ q.inFlight := by simpa using deferred
    have fresh : key ∉ q.queue := fun hk => clean (h.dirty_of_queued key hk)
    exact
      { queue_nodup := h.queue_nodup.append (List.nodup_singleton key) (by simpa using fresh)
        dirty_nodup := h.dirty_nodup.append (List.nodup_singleton key) (by simpa using clean)
        inFlight_nodup := h.inFlight_nodup
        apart := by
          intro k hk
          obtain hk | hk := List.mem_append.1 hk
          · exact h.apart k hk
          · simp_all
        dirty_of_queued := by
          intro k hk
          obtain hk | hk := List.mem_append.1 hk
          · exact List.mem_append_left _ (h.dirty_of_queued k hk)
          · exact List.mem_append_right _ hk
        placed := by
          intro k hk
          obtain hk | hk := List.mem_append.1 hk
          · exact (h.placed k hk).imp_left (List.mem_append_left _)
          · exact .inl (List.mem_append_right _ hk) }

/-- What a hand-out finds: the key waited, was dirty and was not in flight. -/
theorem of_take? (taken : q.take? = some (key, q')) :
    key ∈ q.queue ∧ key ∈ q.dirty ∧ key ∉ q.inFlight := by
  obtain ⟨rest, hq, -⟩ := take?_eq_some.1 taken
  have waits : key ∈ q.queue := by simp [hq]
  exact ⟨waits, h.dirty_of_queued key waits, h.apart key waits⟩

theorem take?_inFlight (taken : q.take? = some (key, q')) :
    q'.inFlight = q.inFlight ++ [key] := by
  have still := (h.of_take? taken).2.2
  obtain ⟨rest, -, rfl⟩ := take?_eq_some.1 taken
  simp [still]

theorem mem_take?_dirty (taken : q.take? = some (key, q')) :
    k ∈ q'.dirty ↔ k ≠ key ∧ k ∈ q.dirty := by
  obtain ⟨rest, -, rfl⟩ := take?_eq_some.1 taken
  exact h.dirty_nodup.mem_erase_iff

theorem take? (taken : q.take? = some (key, q')) : q'.Consistent := by
  have flight := h.take?_inFlight taken
  have dirty : ∀ k, k ∈ q'.dirty ↔ k ≠ key ∧ k ∈ q.dirty := fun k => h.mem_take?_dirty taken
  have still := (h.of_take? taken).2.2
  obtain ⟨rest, hq, same⟩ := take?_eq_some.1 taken
  have rest_eq : q'.queue = rest := by rw [same]
  have nodup : (key :: rest).Nodup := hq ▸ h.queue_nodup
  exact
    { queue_nodup := rest_eq ▸ nodup.of_cons
      dirty_nodup := by rw [same]; exact h.dirty_nodup.erase key
      inFlight_nodup := by
        rw [flight]
        exact h.inFlight_nodup.append (List.nodup_singleton key) (by simpa using still)
      apart := by
        intro k hk
        rw [rest_eq] at hk
        have ne : k ≠ key := fun e => (List.nodup_cons.1 nodup).1 (e ▸ hk)
        simpa [flight, ne] using h.apart k (by simp [hq, hk])
      dirty_of_queued := by
        intro k hk
        rw [rest_eq] at hk
        have ne : k ≠ key := fun e => (List.nodup_cons.1 nodup).1 (e ▸ hk)
        exact (dirty k).2 ⟨ne, h.dirty_of_queued k (by simp [hq, hk])⟩
      placed := by
        intro k hk
        obtain ⟨ne, hk⟩ := (dirty k).1 hk
        obtain hk | hk := h.placed k hk
        · rw [hq] at hk
          exact .inl (rest_eq ▸ (List.mem_cons.1 hk).resolve_left ne)
        · exact .inr (by simp [flight, hk]) }

theorem finish (handed : key ∈ q.inFlight) : (q.finish key).1.Consistent := by
  have waits_not : key ∉ q.queue := fun hk => h.apart key hk handed
  have gone : ∀ k, k ∈ q.inFlight.erase key ↔ k ≠ key ∧ k ∈ q.inFlight :=
    fun k => h.inFlight_nodup.mem_erase_iff
  rw [WorkQueue.finish]
  dsimp only
  split_ifs with again
  · have dirty : key ∈ q.dirty := by simpa using again
    exact
      { queue_nodup := h.queue_nodup.append (List.nodup_singleton key) (by simpa using waits_not)
        dirty_nodup := h.dirty_nodup
        inFlight_nodup := h.inFlight_nodup.erase key
        apart := by
          intro k hk
          obtain hk | hk := List.mem_append.1 hk
          · exact fun hf => h.apart k hk ((gone k).1 hf).2
          · exact fun hf => ((gone k).1 hf).1 (by simpa using hk)
        dirty_of_queued := by
          intro k hk
          obtain hk | hk := List.mem_append.1 hk
          · exact h.dirty_of_queued k hk
          · simpa [List.mem_singleton.1 hk] using dirty
        placed := by
          intro k hk
          by_cases e : k = key
          · exact .inl (by simp [e])
          · exact (h.placed k hk).imp (List.mem_append_left _) fun hf => (gone k).2 ⟨e, hf⟩ }
  · have clean : key ∉ q.dirty := by simpa using again
    exact
      { queue_nodup := h.queue_nodup
        dirty_nodup := h.dirty_nodup
        inFlight_nodup := h.inFlight_nodup.erase key
        apart := fun k hk hf => h.apart k hk ((gone k).1 hf).2
        dirty_of_queued := h.dirty_of_queued
        placed := by
          intro k hk
          have e : k ≠ key := fun e => clean (e ▸ hk)
          exact (h.placed k hk).imp_right fun hf => (gone k).2 ⟨e, hf⟩ }

theorem close : q.close.Consistent :=
  ⟨h.queue_nodup, h.dirty_nodup, h.inFlight_nodup, h.apart, h.dirty_of_queued, h.placed⟩

/-- Nothing is dirty once no key waits and none is in flight. -/
theorem dirty_eq_nil (empty : q.queue = []) (free : q.inFlight = []) : q.dirty = [] := by
  refine List.eq_nil_iff_forall_not_mem.2 ?_
  intro k hk
  have := h.placed k hk
  simp [empty, free] at this

end Consistent

end ResourceWatch.WorkQueue
