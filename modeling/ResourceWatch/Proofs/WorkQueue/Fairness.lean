import Mathlib.Data.List.Infix
import ResourceWatch.Proofs.WorkQueue.World

/-!
# Nobody overtakes a key that waits

A key becomes eligible when it is pushed, unless it is in flight or waits already, and when
it is reported done after it was pushed again while it was in flight. All of this is read
off the story of a queue, without looking into the queue.

Keys are handed out in the order in which they become eligible: what has been handed out,
followed by what waits, is what has become eligible. So whoever waits is passed by the keys
that waited before it, each of them once, and by no other, however often they are pushed or
join the queue again.
-/

namespace ResourceWatch.WorkQueue

variable {deeds before later mid : List Deed} {d : Deed} {q q' : WorkQueue} {key k : String}

/-- Whether a key was pushed before any closing, and has not been handed out since. -/
def Pending (deeds : List Deed) (key : String) : Prop :=
  ∃ before later, deeds = before ++ .pushed key :: later ∧ .handed key ∉ later ∧
    .closed ∉ before

theorem pending_iff_getElem? :
    Pending deeds key ↔ ∃ n < deeds.length, deeds[n]? = some (.pushed key) ∧
      .handed key ∉ deeds.drop (n + 1) ∧ .closed ∉ deeds.take n := by
  constructor
  · rintro ⟨before, later, rfl, since, early⟩
    exact ⟨before.length, by simp, by simp, by simpa using since, by simpa using early⟩
  · rintro ⟨n, inside, there, since, early⟩
    have there : deeds[n] = .pushed key := by simpa [inside] using there
    refine ⟨deeds.take n, deeds.drop (n + 1), ?_, since, early⟩
    rw [← there, List.getElem_cons_drop, List.take_append_drop]

instance (deeds : List Deed) (key : String) : Decidable (Pending deeds key) :=
  decidable_of_iff _ pending_iff_getElem?.symm

theorem pending_append :
    Pending (deeds ++ [d]) key ↔
      (d = .pushed key ∧ .closed ∉ deeds) ∨ (Pending deeds key ∧ d ≠ .handed key) := by
  constructor
  · rintro ⟨before, later, split, since, early⟩
    obtain ⟨rfl, rfl, rfl⟩ | ⟨rest, rfl, rfl⟩ := append_singleton_eq_append_cons.1 split
    · exact .inl ⟨rfl, early⟩
    · refine .inr ⟨⟨before, rest, rfl, fun handed => since (by simp [handed]), early⟩, ?_⟩
      rintro rfl
      simp at since
  · rintro (⟨rfl, early⟩ | ⟨⟨before, later, rfl, since, early⟩, other⟩)
    · exact ⟨deeds, [], rfl, by simp, early⟩
    · exact ⟨before, later ++ [d], by simp, by simp [since, Ne.symm other], early⟩

/-- The key that becomes eligible through a deed, after others. -/
def admitted (told : List Deed) : Deed → List String
  | .pushed key =>
    if .closed ∉ told ∧ ¬ Outstanding told key ∧ ¬ Pending told key then [key] else []
  | .finished key => if Pending told key then [key] else []
  | .handed _ | .closed => []

/-- The keys that become eligible through deeds, after others, in the order in which they
do. -/
def eligible (told : List Deed) : List Deed → List String
  | [] => []
  | d :: rest => admitted told d ++ eligible (told ++ [d]) rest

theorem eligible_append (told deeds more : List Deed) :
    eligible told (deeds ++ more) = eligible told deeds ++ eligible (told ++ deeds) more := by
  induction deeds generalizing told with
  | nil => simp [eligible]
  | cons d rest ih => simp [eligible, ih]

def handedOut (deeds : List Deed) : List String :=
  deeds.filterMap fun
    | .handed key => some key
    | _ => none

@[simp] theorem handedOut_append (deeds more : List Deed) :
    handedOut (deeds ++ more) = handedOut deeds ++ handedOut more :=
  List.filterMap_append

theorem count_handedOut (deeds : List Deed) (key : String) :
    (handedOut deeds).count key = deeds.count (.handed key) := by
  induction deeds with
  | nil => rfl
  | cons d rest ih =>
      cases d with
      | handed k =>
          by_cases same : k = key
          · simpa [handedOut, same] using ih
          · simpa [handedOut, same] using ih
      | pushed | finished | closed => simpa [handedOut] using ih

theorem mem_handedOut : key ∈ handedOut deeds ↔ .handed key ∈ deeds := by
  rw [← List.count_pos_iff, count_handedOut, List.count_pos_iff]

namespace Story

theorem initial (story : Story deeds q) (early : before <+: deeds) :
    ∃ q₁, Story before q₁ := by
  induction story with
  | start => exact ⟨{}, List.prefix_nil.1 early ▸ .start⟩
  | push story key ih =>
      exact (List.prefix_concat_iff.1 early).elim (fun all => ⟨_, all ▸ story.push key⟩) ih
  | take story taken ih =>
      exact (List.prefix_concat_iff.1 early).elim (fun all => ⟨_, all ▸ story.take taken⟩) ih
  | finish story out ih =>
      exact (List.prefix_concat_iff.1 early).elim (fun all => ⟨_, all ▸ story.finish out⟩) ih
  | close story ih =>
      exact (List.prefix_concat_iff.1 early).elim (fun all => ⟨_, all ▸ story.close⟩) ih

theorem open_iff (story : Story deeds q) : q.closed = false ↔ .closed ∉ deeds := by
  rw [← story.explained.closed_iff]
  simp

theorem mem_dirty_iff (story : Story deeds q) : key ∈ q.dirty ↔ Pending deeds key := by
  induction story with
  | start => simp [Pending]
  | push story k ih =>
      rw [mem_push_dirty, pending_append, ih, story.open_iff]
      constructor
      · rintro (pending | ⟨rfl, early⟩)
        · exact .inr ⟨pending, by simp⟩
        · exact .inl ⟨rfl, early⟩
      · rintro (⟨same, early⟩ | ⟨pending, -⟩)
        · exact .inr ⟨(Deed.pushed.inj same).symm, early⟩
        · exact .inl pending
  | take story taken ih =>
      rw [story.explained.mem_take?_dirty taken, pending_append, ih]
      simp [and_comm, eq_comm]
  | finish story out ih => simp [pending_append, ih]
  | close story ih => simpa [pending_append, WorkQueue.close] using ih

/-- A push lets a key wait that becomes eligible, and no other. -/
theorem push_queue (story : Story deeds q) (key : String) :
    (q.push key).1.queue = q.queue ++ admitted deeds (.pushed key) := by
  simp only [WorkQueue.push, admitted, ← story.open_iff, ← story.mem_dirty_iff,
    ← story.explained.mem_inFlight_iff]
  split_ifs <;> simp_all

/-- A report lets a key wait that becomes eligible, and no other. -/
theorem finish_queue (story : Story deeds q) (key : String) :
    (q.finish key).1.queue = q.queue ++ admitted deeds (.finished key) := by
  simp only [WorkQueue.finish, admitted, ← story.mem_dirty_iff]
  split_ifs <;> simp_all

/-- What has become eligible has been handed out, in the same order, or still waits. -/
theorem handedOut_append_queue (story : Story deeds q) :
    handedOut deeds ++ q.queue = eligible [] deeds := by
  induction story with
  | start => rfl
  | push story key ih =>
      rw [eligible_append, ← ih, story.push_queue]
      simp [eligible, handedOut]
  | take story taken ih =>
      obtain ⟨rest, waits, rfl⟩ := take?_eq_some.1 taken
      rw [eligible_append, ← ih, waits]
      simp [eligible, handedOut, admitted]
  | @finish told q key story out ih =>
      rw [eligible_append, ← ih, story.finish_queue]
      simp [eligible, handedOut]
  | close story ih =>
      rw [eligible_append, ← ih]
      simp [eligible, handedOut, admitted, WorkQueue.close]

/-- Whoever becomes eligible waits. -/
theorem mem_queue_of_admitted (story : Story (deeds ++ [d]) q) (joins : k ∈ admitted deeds d) :
    k ∈ q.queue := by
  obtain ⟨q₀, earlier⟩ := story.initial (List.prefix_append deeds [d])
  have stays : handedOut [d] = [] := by
    cases d with
    | handed => simp [admitted] at joins
    | pushed | finished | closed => rfl
  have now : handedOut deeds ++ q.queue = handedOut deeds ++ (q₀.queue ++ admitted deeds d) := by
    calc handedOut deeds ++ q.queue
      _ = handedOut (deeds ++ [d]) ++ q.queue := by simp [stays]
      _ = eligible [] (deeds ++ [d]) := story.handedOut_append_queue
      _ = eligible [] deeds ++ admitted deeds d := by simp [eligible_append, eligible]
      _ = handedOut deeds ++ (q₀.queue ++ admitted deeds d) := by
        rw [← earlier.handedOut_append_queue, List.append_assoc]
  rw [List.append_cancel_left now]
  exact List.mem_append_right _ joins

/-- As long as a key waits, only keys that wait before it are handed out. -/
theorem handedOut_prefix (story : Story (before ++ mid) q') (earlier : Story before q)
    (waits : k ∈ q.queue) (still : .handed k ∉ mid) : handedOut mid <+: q.queue := by
  have meanwhile : handedOut mid ++ q'.queue = q.queue ++ eligible before mid := by
    refine (List.append_right_inj (handedOut before)).1 ?_
    calc handedOut before ++ (handedOut mid ++ q'.queue)
      _ = eligible [] (before ++ mid) := by
        rw [← story.handedOut_append_queue, handedOut_append, List.append_assoc]
      _ = handedOut before ++ (q.queue ++ eligible before mid) := by
        rw [eligible_append, ← earlier.handedOut_append_queue, List.nil_append, List.append_assoc]
  obtain ⟨rest, split, -⟩ | ⟨rest, split, -⟩ := List.append_eq_append_iff.1 meanwhile
  · exact ⟨rest, split.symm⟩
  · exact absurd (mem_handedOut.1 (split ▸ List.mem_append_left rest waits)) still

/-- While an eligible key waits, every key is handed out once at most. -/
theorem count_handed_le_one (story : Story deeds q) (split : deeds = before ++ d :: mid ++ later)
    (joins : k ∈ admitted before d) (still : .handed k ∉ mid) (other : String) :
    mid.count (.handed other) ≤ 1 := by
  obtain ⟨q', whole⟩ : ∃ q', Story ((before ++ [d]) ++ mid) q' :=
    story.initial ⟨later, by simp [split]⟩
  obtain ⟨q₁, first⟩ := whole.initial (List.prefix_append (before ++ [d]) mid)
  have waits := first.mem_queue_of_admitted joins
  have nodup := first.explained.queue_nodup
  rw [← count_handedOut]
  calc (handedOut mid).count other
    _ ≤ q₁.queue.count other := (whole.handedOut_prefix first waits still).sublist.count_le other
    _ ≤ 1 := List.nodup_iff_count_le_one.1 nodup other

end Story

end ResourceWatch.WorkQueue

namespace ResourceWatch.QueueWorld

open WorkQueue

variable {w : QueueWorld} {past : Past QueueWorld Command}

/-- Keys are handed out in the order in which they become eligible, to whoever asks: what
has become eligible has been handed out, in the same order, or still waits. From the moment
at which a key becomes eligible until it is handed out, every other key is handed out once
at most, whatever is pushed or reported done meanwhile. -/
theorem in_order_of_run (run : conduct.Run {} past w) :
    handedOut (story past) ++ w.desk.queue.queue = eligible [] (story past) ∧
    ∀ before d mid later k, story past = before ++ d :: mid ++ later →
      k ∈ admitted before d → .handed k ∉ mid →
      ∀ other, other ≠ k → mid.count (.handed other) ≤ 1 := by
  have told := story_of_run run
  refine ⟨told.handedOut_append_queue, ?_⟩
  intro before d mid later k split joins still other _
  exact told.count_handed_le_one split joins still other

/-- A key that is pushed over and over again, and one that waits behind it. -/
def crowding : List (Happening Command) :=
  [.command (.push "hot"), .command (.push "cold"), .command .ask, .move 0,
    .command (.push "hot"), .command (.finish "hot"), .command (.push "hot"), .command .ask,
    .move 1]

theorem in_order_of_crowding :
    ∃ past w, conduct.Run {} past w ∧
      story past = [.pushed "hot"] ++ .pushed "cold" :: [.handed "hot", .pushed "hot",
        .finished "hot", .pushed "hot"] ++ [.handed "cold"] ∧
      handedOut (story past) ++ w.desk.queue.queue = ["hot", "cold", "hot"] ∧
      [Deed.handed "hot", .pushed "hot", .finished "hot", .pushed "hot"].count
        (.handed "hot") ≤ 1 := by
  have begun : conduct.Run {} [] {} := .start
  have run := begun.follow crowding (by decide +kernel)
  have told : story ((conduct.follow [] {} crowding).get (by decide +kernel)).1 =
      [.pushed "hot"] ++ .pushed "cold" :: [.handed "hot", .pushed "hot", .finished "hot",
        .pushed "hot"] ++ [.handed "cold"] := by
    decide +kernel
  obtain ⟨order, once⟩ := in_order_of_run run
  have joined : eligible [] (story ((conduct.follow [] {} crowding).get
      (by decide +kernel)).1) = ["hot", "cold", "hot"] := by
    rw [told]
    decide
  exact ⟨_, _, run, told, order.trans joined,
    once _ _ _ _ "cold" told (by decide) (by decide) "hot" (by decide)⟩

end ResourceWatch.QueueWorld
