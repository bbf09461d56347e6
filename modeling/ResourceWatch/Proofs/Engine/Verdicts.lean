import ResourceWatch.Proofs.Engine.Backfill
import ResourceWatch.Proofs.Engine.Turns

/-!
# Which stream decides how waiting ends

Streams are waited for in plan order, so what waiting comes to is decided by the first of
them that has not told. If that one has ended, waiting fails at once and names it. If it
is on its way, waiting goes on until the time is over, and a stream behind it that has
ended is not looked at.
-/

namespace ResourceWatch

/-- What a task waits for: under which token, for which streams, and until when. -/
def EngineTask.waits? : EngineTask → Option (CallToken × List (Gvk × TaskId) × Nat)
  | .startup (.hydrating _ pending due) => some (.shared, pending, due)
  | .hydration (.hydrating pending _ due token) => some (token, pending, due)
  | _ => none

def EngineTask.waited? : EngineTask → Option (Except WatchError Unit)
  | .startup (.ended result) => some (result.map fun _ => ())
  | .hydration (.ended result) => result
  | _ => none

namespace Engine

variable {options : EngineOptions} {plan : WatchPlan} {w w' w₁ : Engine} {t v : TaskId}
  {task : EngineTask} {x : Happening Command} {past before later : Past Engine Command}
  {pending front rest more : List (Gvk × TaskId)} {pumps : List TaskId} {token : CallToken}
  {fired : Bool} {due : Nat} {gvk : Gvk} {limit : Duration} {result : Except WatchError Unit}

/-- What waiting for streams has come to. -/
def verdict? (w : Engine) (t : TaskId) : Option (Except WatchError Unit) :=
  w.tasks[t]?.bind EngineTask.waited?

/-- What entitles whoever waits for streams to an answer. -/
inductive Verdict (w : Engine) (pending : List (Gvk × TaskId)) (fired : Bool) (due : Nat) :
    Except WatchError Unit → Prop
  /-- All have told. -/
  | told (all : ∀ entry ∈ pending, w.Told entry.2) : Verdict w pending fired due (.ok ())
  /-- The first that has not told has ended. -/
  | closed {front more : List (Gvk × TaskId)} {gvk : Gvk} {v : TaskId}
      (split : pending = front ++ (gvk, v) :: more) (all : ∀ entry ∈ front, w.Told entry.2)
      (fell : w.Fell v) : Verdict w pending fired due (.error (.streamClosed gvk))
  /-- The token has fired. -/
  | cancelled (fires : fired = true) : Verdict w pending fired due (.error .cancelled)
  /-- The time is over. -/
  | late (limit : Duration) (expired : due ≤ w.now) :
      Verdict w pending fired due (.error (.syncTimeout limit))

/-- Whoever is answered is entitled to it. -/
theorem verdict_of_answer (manned : w.Manned pumps pending)
    (answer : w.hydration fired pending limit due = .error result) :
    w.Verdict pending fired due result := by
  rw [hydration] at answer
  split at answer
  · rename_i fires
    cases answer
    exact .cancelled fires
  · split at answer
    · rename_i failed
      cases answer
      obtain ⟨front, gvk, v, more, rfl, split, all, fell⟩ := split_of_hydrate_error manned failed
      exact .closed split all fell
    · rename_i hydrated
      cases answer
      obtain ⟨front, split, all⟩ := split_of_hydrate hydrated
      exact .told (by simpa [split] using all)
    · split at answer
      · rename_i expired
        cases answer
        exact .late limit expired
      · cases answer

/-- Those that have told already make no difference. -/
theorem Verdict.append (h : w.Verdict rest fired due result)
    (all : ∀ entry ∈ front, w.Told entry.2) : w.Verdict (front ++ rest) fired due result := by
  cases h with
  | told told =>
      exact .told fun entry member => (List.mem_append.1 member).elim (all entry) (told entry)
  | @closed first more gvk v split told fell =>
      have joined : front ++ rest = (front ++ first) ++ (gvk, v) :: more := by
        rw [split, List.append_assoc]
      refine .closed joined (fun entry member => ?_) fell
      exact (List.mem_append.1 member).elim (all entry) (told entry)
  | cancelled fires => exact .cancelled fires
  | late limit expired => exact .late limit expired

/-- What entitles to an answer goes on to do so. -/
theorem Verdict.passes (h : w.Verdict pending (token.fired w.fired) due result)
    (passes : Passes x w w') : w'.Verdict pending (token.fired w'.fired) due result := by
  cases h with
  | told all => exact .told fun entry member => (all entry member).evolves passes.evolves
  | closed split all fell =>
      exact .closed split (fun entry member => (all entry member).evolves passes.evolves)
        (fell.evolves passes.evolves)
  | cancelled fires =>
      cases token with
      | shared => exact .cancelled (passes.lasts.fired fires)
      | own => exact .cancelled fires
  | late limit expired => exact .late limit (Nat.le_trans expired passes.now)

/-- How a task stands that waits for streams: it waits for those that are left, or it has
the answer that it is entitled to. -/
def Stands (w : Engine) (t : TaskId) (token : CallToken) (pending : List (Gvk × TaskId))
    (due : Nat) : Prop :=
  ∃ task, w.tasks[t]? = some task ∧
    ((∃ front rest, pending = front ++ rest ∧ (∀ entry ∈ front, w.Told entry.2) ∧
        task.waits? = some (token, rest, due)) ∨
      ∃ result, task.waited? = some result ∧ w.Verdict pending (token.fired w.fired) due result)

theorem manned_of_waits (h : w.Watchful) (found : w.tasks[t]? = some task)
    (waits : task.waits? = some (token, pending, due)) : ∃ pumps, w.Manned pumps pending := by
  have grounded := h.grounded t task found
  cases task with
  | startup state =>
      cases state with
      | hydrating r pending due =>
          cases waits
          exact ⟨_, grounded.2.1⟩
      | fresh | ended => cases waits
  | hydration call =>
      cases call with
      | hydrating pending limit due token =>
          cases waits
          exact ⟨_, grounded⟩
      | locking | ended | dropped => cases waits
  | _ => cases waits

/-- Whoever waits goes on to wait for those that are left, or has an answer. -/
theorem turn_of_waits (h : w.Watchful) (possible : conduct.Possible past w x)
    (aside : ∀ c, x = .command c → actor? x ≠ some t) (found : w.tasks[t]? = some task)
    (waits : task.waits? = some (token, pending, due)) :
    ∃ new, (conduct.after w x).tasks[t]? = some new ∧
      ((∃ front rest, pending = front ++ rest ∧ (∀ entry ∈ front, w.Told entry.2) ∧
          new.waits? = some (token, rest, due)) ∨
        ∃ result, new.waited? = some result ∧
          w.Verdict pending (token.fired w.fired) due result) := by
  obtain ⟨pumps, manned⟩ := manned_of_waits h found waits
  have left {limit : Duration} {rest : List (Gvk × TaskId)}
      (left : w.hydration (token.fired w.fired) pending limit due = .ok rest) :=
    split_of_hydrate (hydration_eq_ok.1 left).2.1
  cases task with
  | startup state =>
      obtain ⟨state', found', turn, -⟩ := startupTurn_after h possible found
      refine ⟨_, found', ?_⟩
      cases turn with
      | stays => exact .inl ⟨[], pending, rfl, by simp, waits⟩
      | fails | opens => cases waits
      | waits waiting =>
          cases waits
          obtain ⟨front, split, told⟩ := left waiting
          exact .inl ⟨front, _, split, told, rfl⟩
      | @answers r pending due result answer =>
          cases waits
          exact .inr ⟨result, by cases result <;> rfl, verdict_of_answer manned answer⟩
  | hydration call =>
      obtain ⟨call', found', turn, -⟩ := callTurn_after h possible found
      refine ⟨_, found', ?_⟩
      cases turn with
      | stays => exact .inl ⟨[], pending, rfl, by simp, waits⟩
      | fires | drops => exact absurd rfl (aside _ rfl)
      | misses | seizes => cases waits
      | waits waiting =>
          cases waits
          obtain ⟨front, split, told⟩ := left waiting
          exact .inl ⟨front, _, split, told, rfl⟩
      | answers answer =>
          cases waits
          exact .inr ⟨_, rfl, verdict_of_answer manned answer⟩
  | _ => cases waits

/-- Whatever happens, unless the task is given up or its own token fires, it stands as
before, for fewer streams perhaps. -/
theorem Stands.after (h : w.Stands t token pending due) (watchful : w.Watchful)
    (possible : conduct.Possible past w x) (aside : ∀ c, x = .command c → actor? x ≠ some t) :
    (conduct.after w x).Stands t token pending due := by
  have passes := passes_after watchful possible
  have told {front : List (Gvk × TaskId)} (all : ∀ entry ∈ front, w.Told entry.2) :
      ∀ entry ∈ front, (conduct.after w x).Told entry.2 :=
    fun entry member => (all entry member).evolves passes.evolves
  obtain ⟨task, found, ⟨front, rest, rfl, all, waits⟩ | ⟨result, waited, verdict⟩⟩ := h
  · obtain ⟨new, found', turn⟩ := turn_of_waits watchful possible aside found waits
    refine ⟨new, found', ?_⟩
    obtain ⟨front', rest', rfl, all', waits'⟩ | ⟨result, waited, verdict⟩ := turn
    · refine .inl ⟨front ++ front', rest', (List.append_assoc ..).symm, ?_, waits'⟩
      exact told fun entry member => (List.mem_append.1 member).elim (all entry) (all' entry)
    · exact .inr ⟨result, waited, (verdict.append all).passes passes⟩
  · have ended : task.isEnded = true := by
      cases task with
      | startup state => cases state <;> first | rfl | cases waited
      | hydration call => cases call <;> first | rfl | cases waited
      | _ => cases waited
    exact ⟨task, passes.evolves.final found ended, .inr ⟨result, waited, verdict.passes passes⟩⟩

/-- Whoever has begun to wait at some moment stands so from then on. -/
theorem stands_of_split (run : conduct.Run (ofPlan options plan) past w)
    (split : past = before ++ (w₁, x) :: later) (found : w₁.tasks[t]? = some task)
    (waits : task.waits? = some (token, pending, due))
    (aside : ∀ w₂ c, (w₂, .command c) ∈ (w₁, x) :: later → actor? (.command c) ≠ some t) :
    w.Stands t token pending due := by
  induction run generalizing later with
  | start => simp at split
  | @next past w happening run possible ih =>
      have watchful := watchful_of_run run
      obtain ⟨rfl, same, rfl⟩ | ⟨rest, rfl, rfl⟩ := append_singleton_eq_append_cons.1 split
      · cases same
        have begins : w₁.Stands t token pending due :=
          ⟨task, found, .inl ⟨[], pending, rfl, by simp, waits⟩⟩
        refine begins.after watchful possible ?_
        rintro c rfl
        exact aside w₁ c (by simp)
      · refine (ih rfl fun w₂ c member => aside w₂ c ?_).after watchful possible ?_
        · obtain same | later := List.mem_cons.1 member
          · exact same ▸ List.mem_cons_self ..
          · exact List.mem_cons_of_mem _ (List.mem_append_left _ later)
        · rintro c rfl
          exact aside w c (by simp)

theorem first_unique {front' more' : List (Gvk × TaskId)} {entry entry' : Gvk × TaskId}
    (split : front ++ entry :: more = front' ++ entry' :: more')
    (all : ∀ e ∈ front, w.Told e.2) (untold : ¬ w.Told entry.2)
    (all' : ∀ e ∈ front', w.Told e.2) (untold' : ¬ w.Told entry'.2) : entry = entry' := by
  induction front generalizing front' with
  | nil =>
      cases front' with
      | nil => exact (List.cons.inj split).1
      | cons e front' =>
          exact absurd (all' _ ((List.cons.inj split).1 ▸ List.mem_cons_self ..)) untold
  | cons e front ih =>
      cases front' with
      | nil => exact absurd (all _ ((List.cons.inj split).1 ▸ List.mem_cons_self ..)) untold'
      | cons e' front' =>
          exact ih (List.cons.inj split).2 (fun e member => all e (List.mem_cons_of_mem _ member))
            fun e member => all' e (List.mem_cons_of_mem _ member)

/-- Whoever is blocked waits for a stream that is on its way. -/
theorem pends_of_blocked (blocked : w.Blocked t task)
    (waits : task.waits? = some (token, pending, due)) : w.Pends pending := by
  cases task with
  | startup state =>
      cases state with
      | hydrating =>
          cases waits
          exact blocked.2
      | fresh | ended => cases waits
  | hydration call =>
      cases call with
      | hydrating =>
          cases waits
          exact blocked.2
      | locking | ended | dropped => cases waits
  | _ => cases waits

/-- When nothing can move and there is time left, the first stream in plan order that has
not told decides what waiting has come to: it has failed exactly if that stream has ended,
and it goes on exactly if that stream is on its way, whatever has become of those behind
it. It has not failed because of the time. -/
theorem decided_of_split (run : conduct.Run (ofPlan options plan) past w)
    (split : past = before ++ (w₁, x) :: later) (found : w₁.tasks[t]? = some task)
    (waits : task.waits? = some (token, pending, due))
    (aside : ∀ w₂ c, (w₂, .command c) ∈ (w₁, x) :: later → actor? (.command c) ≠ some t)
    (unfired : token.fired w.fired = false) (early : w.now < due)
    (idle : Cooperative.Idle w) :
    (∀ gvk, w.verdict? t = some (.error (.streamClosed gvk)) ↔
      ∃ front v more, pending = front ++ (gvk, v) :: more ∧
        (∀ entry ∈ front, w.Told entry.2) ∧ w.Fell v) ∧
    (w.verdict? t = none ↔ ∃ front gvk v more, pending = front ++ (gvk, v) :: more ∧
      (∀ entry ∈ front, w.Told entry.2) ∧ w.Untold v) ∧
    ∀ limit, w.verdict? t ≠ some (.error (.syncTimeout limit)) := by
  have verdict {task : EngineTask} (found : w.tasks[t]? = some task) :
      w.verdict? t = task.waited? := by rw [verdict?, found]; rfl
  obtain ⟨task', found', ⟨first, rest, apart, told, waits'⟩ | ⟨result, waited, entitled⟩⟩ :=
    stands_of_split run split found waits aside
  · -- whoever still waits does so for a stream that is on its way
    have none : task'.waited? = none := by
      cases task' with
      | startup state => cases state <;> first | rfl | cases waits'
      | hydration call => cases call <;> first | rfl | cases waits'
      | _ => rfl
    have pends := pends_of_blocked ((watchful_of_run run).blocked idle found') waits'
    cases rest with
    | nil => exact pends.elim
    | cons entry rest =>
        rw [verdict found', none]
        refine ⟨fun gvk => ⟨fun closed => (by cases closed), ?_⟩, ?_, by simp⟩
        · rintro ⟨front, v, more, same, all, fell⟩
          cases first_unique (apart.symm.trans same) told (Untold.not_told pends) all
            fell.not_told
          exact absurd fell (Untold.not_fell pends)
        · exact ⟨fun _ => ⟨first, entry.1, entry.2, rest, apart, told, pends⟩, fun _ => rfl⟩
  · rw [verdict found', waited]
    cases entitled with
    | told all =>
        refine ⟨fun gvk => ⟨fun closed => (by cases closed), ?_⟩,
          ⟨fun waits => (by cases waits), ?_⟩, by simp⟩
        · rintro ⟨front, v, more, rfl, -, fell⟩
          exact absurd (all (gvk, v) (by simp)) fell.not_told
        · rintro ⟨front, gvk, v, more, rfl, -, untold⟩
          exact absurd (all (gvk, v) (by simp)) untold.not_told
    | @closed first more gvk' v apart told fell =>
        refine ⟨fun gvk => ⟨fun closed => ?_, ?_⟩, ⟨fun waits => (by cases waits), ?_⟩, by simp⟩
        · cases closed
          exact ⟨first, v, more, apart, told, fell⟩
        · rintro ⟨front, v', more', same, all, fell'⟩
          cases first_unique (apart.symm.trans same) told fell.not_told all fell'.not_told
          rfl
        · rintro ⟨front, gvk, v', more', same, all, untold⟩
          cases first_unique (apart.symm.trans same) told fell.not_told all untold.not_told
          exact absurd fell untold.not_fell
    | cancelled fires => cases unfired.symm.trans fires
    | late limit expired => exact absurd early (Nat.not_lt.2 expired)

/-- Two streams are opened, and somebody waits for them for a second. -/
def secondOfTwo : List (Happening Command) :=
  .command .register :: .command (.waitHydrated (.ofSeconds 1)) :: [0, 1, 2, 2].map .move

/-- The first stream tells, and the second one ends: this fails the call at once. -/
theorem decided_of_secondOfTwo :
    ∃ before w₁ task, conduct.Run (ofPlan slowOptions twoKinds) (before ++ [(w₁, .move 2)])
        (conduct.after w₁ (.move 2)) ∧
      w₁.tasks[2]? = some task ∧
      task.waits? = some (.shared, [(configMap, 0), (secret, 1)], 1000) ∧
      (conduct.after w₁ (.move 2)).fired = false ∧ (conduct.after w₁ (.move 2)).now < 1000 ∧
      Cooperative.Idle (conduct.after w₁ (.move 2)) ∧
      (conduct.after w₁ (.move 2)).verdict? 2 = some (.error (.streamClosed secret)) := by
  have begun : conduct.Run (ofPlan slowOptions twoKinds) [] (ofPlan slowOptions twoKinds) := .start
  obtain ⟨before, w₁, run, ready, waits, unfired, early, idle, told, fell⟩ :
      ∃ before w₁, conduct.Run (ofPlan slowOptions twoKinds) before w₁ ∧
        2 ∈ w₁.shop.schedule.ready ∧
        w₁.tasks[2]?.bind EngineTask.waits? =
          some (.shared, [(configMap, 0), (secret, 1)], 1000) ∧
        (conduct.after w₁ (.move 2)).fired = false ∧ (conduct.after w₁ (.move 2)).now < 1000 ∧
        (conduct.after w₁ (.move 2)).shop.schedule.ready = [] ∧
        ((conduct.after w₁ (.move 2)).pump? 0).any (·.hydrated) = true ∧
        ((conduct.after w₁ (.move 2)).pump? 1).any (fun q => !q.hydrated && q.state == .ended) =
          true :=
    ⟨_, _, begun.follow (secondOfTwo ++
      [.command (.arrive configMap (.item (.ok .hydrated))), .move 0, .move 0,
        .command (.closeStream secret), .move 1]) (by decide +kernel), by decide +kernel⟩
  obtain ⟨task, found, waits⟩ := Option.bind_eq_some_iff.1 waits
  have decided := decided_of_split (run.next (h := .move 2) ready) rfl found waits (by simp)
    unfired early (idle_iff.2 idle)
  have closed := (decided.1 secret).2 ⟨[(configMap, 0)], 1, [], rfl,
    by simpa using told_of_any told, fell_of_any fell⟩
  exact ⟨before, w₁, task, run.next ready, found, waits, unfired, early, idle_iff.2 idle, closed⟩

/-- The second stream ends while the first is on its way: nobody looks at it, and the call
fails because of the time. -/
theorem late_of_secondOfTwo :
    ∃ past w₁ w, conduct.Run (ofPlan slowOptions twoKinds) past w₁ ∧
      w₁.tasks[2]?.bind EngineTask.waits? =
        some (.shared, [(configMap, 0), (secret, 1)], 1000) ∧
      w₁.now < 1000 ∧ w₁.Fell 1 ∧ Cooperative.Idle w₁ ∧ w₁.verdict? 2 = none ∧
      conduct.Run (ofPlan slowOptions twoKinds)
        (past ++ [(w₁, .elapse 1000), (conduct.after w₁ (.elapse 1000), .move 2)]) w ∧
      w.fired = false ∧ w.verdict? 2 = some (.error (.syncTimeout (.ofSeconds 1))) := by
  have begun : conduct.Run (ofPlan slowOptions twoKinds) [] (ofPlan slowOptions twoKinds) := .start
  obtain ⟨past, w₁, run, waits, early, fell, idle, none, ready, unfired, late⟩ :
      ∃ past w₁, conduct.Run (ofPlan slowOptions twoKinds) past w₁ ∧
        w₁.tasks[2]?.bind EngineTask.waits? =
          some (.shared, [(configMap, 0), (secret, 1)], 1000) ∧
        w₁.now < 1000 ∧ (w₁.pump? 1).any (fun q => !q.hydrated && q.state == .ended) = true ∧
        w₁.shop.schedule.ready = [] ∧ w₁.verdict? 2 = none ∧
        2 ∈ (conduct.after w₁ (.elapse 1000)).shop.schedule.ready ∧
        (conduct.after (conduct.after w₁ (.elapse 1000)) (.move 2)).fired = false ∧
        (conduct.after (conduct.after w₁ (.elapse 1000)) (.move 2)).verdict? 2 =
          some (.error (.syncTimeout (.ofSeconds 1))) :=
    ⟨_, _, begun.follow (secondOfTwo ++ [.command (.closeStream secret), .move 1, .move 2])
      (by decide +kernel), by decide +kernel⟩
  have later := run.next (h := .elapse 1000) (Nat.le_of_lt early)
  have last := later.next (h := .move 2) ready
  rw [List.append_assoc] at last
  exact ⟨past, w₁, _, run, waits, early, fell_of_any fell, idle_iff.2 idle, none, last, unfired,
    late⟩

end Engine

end ResourceWatch
