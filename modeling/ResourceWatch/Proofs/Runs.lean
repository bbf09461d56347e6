import ResourceWatch.Schedule

/-!
# Runs

A run is what happens to a world, one thing after the other: a ready task goes
on, time passes, or something is done from outside. Which ready task goes on,
when time passes and when something is done is left open, so a statement about
all runs holds for every order of them. Running tasks first come, first served
until nothing can move is one of these orders.

What has happened is kept together with the worlds that it happened to. So a
statement can refer to any moment of a run, and what may be done from outside can
depend on what was done before.
-/

namespace ResourceWatch

/-- What happens to a world. -/
inductive Happening (Command : Type) where
  /-- A task goes on. -/
  | move (task : TaskId)
  /-- Time passes, up to a time. -/
  | elapse (time : Nat)
  /-- Something is done from outside. -/
  | command (command : Command)

/-- What has happened, the first thing first, each with the world to which it
happened. -/
abbrev Past (World Command : Type) := List (World × Happening Command)

/-- How a world is dealt with from outside. -/
structure Conduct (World Command : Type) where
  /-- The world after a command. -/
  apply : World → Command → World
  /-- Whether a command may be given after a past. -/
  allows : Past World Command → Command → Bool

/-- An entry of a longer list is its last one, or one of the shorter list. -/
theorem append_singleton_eq_append_cons {α : Type} {l a b : List α} {x y : α} :
    l ++ [x] = a ++ y :: b ↔
      (l = a ∧ x = y ∧ b = []) ∨ ∃ c, b = c ++ [x] ∧ l = a ++ y :: c := by
  constructor
  · intro h
    obtain rfl | ⟨c, z, rfl⟩ := List.eq_nil_or_concat b
    · obtain ⟨hl, hx⟩ := List.append_inj' h rfl
      exact .inl ⟨hl, by simpa using hx, rfl⟩
    · rw [List.concat_eq_append, ← List.cons_append, ← List.append_assoc] at h
      obtain ⟨hl, hx⟩ := List.append_inj' h rfl
      simp only [List.cons.injEq, and_true] at hx
      exact .inr ⟨c, by rw [hx, List.concat_eq_append], hl⟩
  · rintro (⟨rfl, rfl, rfl⟩ | ⟨c, rfl, rfl⟩)
    · rfl
    · simp

/-- With one entry more, a list holds what it held before, and the entry at its end. -/
theorem getElem?_append_singleton {α : Type} {l : List α} {n : Nat} {x y : α} :
    (l ++ [x])[n]? = some y ↔ l[n]? = some y ∨ (n = l.length ∧ x = y) := by
  obtain known | rfl | beyond := Nat.lt_trichotomy n l.length
  · rw [List.getElem?_append_left known]
    simp [Nat.ne_of_lt known]
  · simp
  · rw [List.getElem?_eq_none (by simpa using Nat.succ_le_of_lt beyond),
      List.getElem?_eq_none (Nat.le_of_lt beyond)]
    simp [Nat.ne_of_gt beyond]

namespace Schedule

theorem mem_wake {s : Schedule} {t u : TaskId} :
    u ∈ (s.wake t).ready ↔ u ∈ s.ready ∨ u = t := by
  rw [wake]
  split
  · rename_i h
    exact ⟨.inl, fun hu => hu.elim id fun e => e ▸ h⟩
  · simp

theorem mem_wakeAll {s : Schedule} {ts : List TaskId} {u : TaskId} :
    u ∈ (s.wakeAll ts).ready ↔ u ∈ s.ready ∨ u ∈ ts := by
  rw [wakeAll]
  induction ts generalizing s with
  | nil => simp
  | cons t ts ih => simp [ih, mem_wake, or_assoc]

theorem nodup_wake {s : Schedule} {t : TaskId} (nodup : s.ready.Nodup) :
    (s.wake t).ready.Nodup := by
  rw [wake]
  split
  · exact nodup
  · rename_i new
    refine List.nodup_append.2 ⟨nodup, by simp, ?_⟩
    rintro u there v last rfl
    exact new (List.mem_singleton.1 last ▸ there)

theorem nodup_wakeAll {s : Schedule} {ts : List TaskId} (nodup : s.ready.Nodup) :
    (s.wakeAll ts).ready.Nodup := by
  rw [wakeAll]
  induction ts generalizing s with
  | nil => exact nodup
  | cons t ts ih => exact ih (nodup_wake nodup)

@[simp] theorem wake_timers (s : Schedule) (t : TaskId) : (s.wake t).timers = s.timers := by
  rw [wake]
  split <;> rfl

@[simp] theorem wakeAll_timers (s : Schedule) (ts : List TaskId) :
    (s.wakeAll ts).timers = s.timers := by
  rw [wakeAll]
  induction ts generalizing s with
  | nil => rfl
  | cons t ts ih => exact (ih (s.wake t)).trans (wake_timers s t)

/-- Whoever is made ready stands behind those who were. -/
theorem filter_wakeAll {s : Schedule} {ts : List TaskId} {p : TaskId → Bool}
    (others : ∀ u ∈ ts, p u = false) : (s.wakeAll ts).ready.filter p = s.ready.filter p := by
  rw [wakeAll]
  induction ts generalizing s with
  | nil => rfl
  | cons t ts ih =>
      refine (ih fun u there => others u (List.mem_cons_of_mem _ there)).trans ?_
      rw [wake]
      split
      · rfl
      · simp [others t List.mem_cons_self]

/-- Whoever was ready in the first schedule is ready in the second one. -/
def Keeps (s s' : Schedule) : Prop := ∀ t ∈ s.ready, t ∈ s'.ready

theorem Keeps.refl (s : Schedule) : s.Keeps s := fun _ h => h

theorem Keeps.trans {s₁ s₂ s₃ : Schedule} (h : s₁.Keeps s₂) (h' : s₂.Keeps s₃) :
    s₁.Keeps s₃ := fun t ht => h' t (h t ht)

theorem keeps_wake (s : Schedule) (t : TaskId) : s.Keeps (s.wake t) :=
  fun _ h => mem_wake.2 (.inl h)

theorem keeps_wakeAll (s : Schedule) (ts : List TaskId) : s.Keeps (s.wakeAll ts) :=
  fun _ h => mem_wakeAll.2 (.inl h)

theorem keeps_setTimer (s : Schedule) (due : Nat) (t : TaskId) : s.Keeps (s.setTimer due t) :=
  fun _ h => h

theorem keeps_clearTimers (s : Schedule) (t : TaskId) : s.Keeps (s.clearTimers t) :=
  fun _ h => h

theorem keeps_elapse (s : Schedule) (time : Nat) : s.Keeps (s.elapse time) :=
  fun _ h => mem_wakeAll.2 (.inl h)

theorem mem_rest_of_ne {s : Schedule} {t u : TaskId} (h : u ∈ s.ready) (hne : u ≠ t) :
    u ∈ (s.rest t).ready := (List.mem_erase_of_ne hne).2 h

end Schedule

namespace Cooperative

variable {World : Type} [Cooperative World] {w v : World} {t : TaskId}

/-- A task that can go on at once stays ready. -/
theorem run_of_goesOn (acts : act w t = (v, .goesOn)) : run w t = v := by
  rw [run, acts]

theorem run_of_rests (acts : act w t = (v, .rests)) :
    run w t = reschedule v ((schedule v).rest t) := by
  rw [run, acts]

/-- Nobody is ready when nothing can move. -/
theorem Idle.not_ready (idle : Idle w) (t : TaskId) : t ∉ (schedule w).ready := by
  rw [show (schedule w).ready = [] from idle]
  exact List.not_mem_nil

end Cooperative

namespace Conduct

open Cooperative

variable {World Command : Type} [Cooperative World] (c : Conduct World Command)

def after (w : World) : Happening Command → World
  | .move t => Cooperative.run w t
  | .elapse time => reschedule w ((schedule w).elapse time)
  | .command command => c.apply w command

/-- Whether something can happen next. -/
def Possible (past : Past World Command) (w : World) : Happening Command → Prop
  | .move t => t ∈ (schedule w).ready
  | .elapse time => (schedule w).now ≤ time
  | .command command => c.allows past command = true

instance (past : Past World Command) (w : World) (h : Happening Command) :
    Decidable (c.Possible past w h) := by
  cases h <;> unfold Possible <;> infer_instance

/-- The worlds that a first world can become, with what happened on the way. -/
inductive Run (w₀ : World) : Past World Command → World → Prop where
  | start : Run w₀ [] w₀
  | next {past : Past World Command} {w : World} {h : Happening Command}
      (run : Run w₀ past w) (possible : c.Possible past w h) :
      Run w₀ (past ++ [(w, h)]) (c.after w h)

def follow (past : Past World Command) (w : World) :
    List (Happening Command) → Option (Past World Command × World)
  | [] => some (past, w)
  | h :: rest =>
    if c.Possible past w h then follow (past ++ [(w, h)]) (c.after w h) rest else none

variable {c} {w₀ w : World} {past : Past World Command}

/-- What can happen one thing after the other makes a longer run. -/
theorem Run.follow (run : c.Run w₀ past w) (happenings : List (Happening Command))
    (possible : (c.follow past w happenings).isSome) :
    c.Run w₀ ((c.follow past w happenings).get possible).1
      ((c.follow past w happenings).get possible).2 := by
  induction happenings generalizing past w with
  | nil => exact run
  | cons happening rest ih =>
      simp only [Conduct.follow] at possible ⊢
      split at possible
      · rename_i next
        simpa only [if_pos next] using ih (run.next next) possible
      · simp at possible

theorem Run.mono {c' : Conduct World Command} (applies : ∀ w x, c.apply w x = c'.apply w x)
    (allows : ∀ past x, c.allows past x = true → c'.allows past x = true)
    (run : c.Run w₀ past w) : c'.Run w₀ past w := by
  induction run with
  | start => exact .start
  | @next past w h run possible ih =>
      have same : c.after w h = c'.after w h := by
        cases h with
        | move | elapse => rfl
        | command x => exact applies w x
      rw [same]
      refine ih.next ?_
      cases h with
      | move | elapse => exact possible
      | command x => exact allows past x possible

/-- Every moment of a run ends a run of its own, and what happened then was
possible. -/
theorem Run.split {before later : Past World Command} {w' : World} {h : Happening Command}
    (run : c.Run w₀ past w) (split : past = before ++ (w', h) :: later) :
    c.Run w₀ before w' ∧ c.Possible before w' h := by
  induction run generalizing later with
  | start => simp at split
  | next run possible ih =>
      obtain ⟨rfl, same, rfl⟩ | ⟨rest, rfl, rfl⟩ := append_singleton_eq_append_cons.1 split
      · cases same
        exact ⟨run, possible⟩
      · exact ih rfl

/-- So does every moment after another one. -/
theorem Run.splitSince {before mid later : Past World Command}
    {first : World × Happening Command} {w' : World} {h : Happening Command}
    (run : c.Run w₀ (before ++ first :: (mid ++ (w', h) :: later)) w) :
    c.Run w₀ (before ++ first :: mid) w' ∧ c.Possible (before ++ first :: mid) w' h := by
  have later_than : before ++ first :: (mid ++ (w', h) :: later) =
      (before ++ first :: mid) ++ (w', h) :: later := by simp
  exact run.split later_than

/-- A run, seen from one of its moments. -/
theorem Run.focus (run : c.Run w₀ past w) {n : Nat} (known : n < past.length) :
    c.Run w₀ (past.take n ++ ((past.get ⟨n, known⟩).1, (past.get ⟨n, known⟩).2) ::
      past.drop (n + 1)) w := by
  have split : past.take n ++ past.get ⟨n, known⟩ :: past.drop (n + 1) = past := by simp
  rwa [Prod.eta, split]

/-- What comes to hold when something happens, and is kept by whatever happens later, holds
in the end. -/
theorem Run.since {P : World × Happening Command → World → Prop} (run : c.Run w₀ past w)
    (first : ∀ {past w h}, c.Run w₀ past w → c.Possible past w h → P (w, h) (c.after w h))
    (keeps : ∀ {past entry w h}, c.Run w₀ past w → c.Possible past w h → P entry w →
      P entry (c.after w h)) : ∀ entry ∈ past, P entry w := by
  induction run with
  | start => simp
  | next run possible ih =>
      intro entry member
      obtain old | last := List.mem_append.1 member
      · exact keeps run possible (ih entry old)
      · cases List.mem_singleton.1 last
        exact first run possible

end Conduct

end ResourceWatch
