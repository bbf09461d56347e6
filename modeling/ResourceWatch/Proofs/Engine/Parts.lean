import ResourceWatch.Proofs.Engine.Path
import ResourceWatch.Proofs.WorkQueue.Desk

/-!
# What the parts of the engine do to the path

Making tasks ready, recording, and changing one task each do one thing to the path
of a change. The larger parts, such as a token that fires or pumps that are to
end, are put together from these.
-/

namespace ResourceWatch

namespace Provider

theorem feed_gvk (p : Provider) (gvk : Gvk) : (p.feed gvk).gvk = gvk := by
  rw [feed]
  cases found : p.feeds.find? (·.gvk == gvk) with
  | none => rfl
  | some f => simpa using List.find?_some found

/-- Replacing a feed by one of its kind does not change where a kind is found. -/
theorem find?_map_replace (feeds : List Feed) (f : Feed) (gvk : Gvk) :
    (feeds.map fun g => if g.gvk == f.gvk then f else g).find? (·.gvk == gvk) =
      (feeds.find? (·.gvk == gvk)).map fun g => if g.gvk == f.gvk then f else g := by
  have same : ((fun g : Feed => g.gvk == gvk) ∘ fun g => if g.gvk == f.gvk then f else g) =
      fun g => g.gvk == gvk := by
    funext g
    by_cases h : g.gvk = f.gvk <;> simp [h]
  rw [List.find?_map, same]

/-- The feed of a kind is the one that was put last. -/
theorem feed_put (p : Provider) (f : Feed) :
    (p.put f).feed = Function.update p.feed f.gvk f := by
  funext gvk
  unfold put feed
  by_cases known : p.feeds.any (·.gvk == f.gvk)
  · rw [if_pos known, find?_map_replace]
    cases found : p.feeds.find? (·.gvk == gvk) with
    | none =>
        have other : gvk ≠ f.gvk := by
          rintro rfl
          obtain ⟨g, there, same⟩ := List.any_eq_true.1 known
          exact List.find?_eq_none.1 found g there same
        simp [Function.update_of_ne other, found]
    | some g =>
        have here : g.gvk = gvk := by simpa using List.find?_some found
        by_cases wanted : gvk = f.gvk
        · simp [here, wanted]
        · simp [here, wanted, found]
  · rw [if_neg known]
    have none : p.feeds.find? (·.gvk == f.gvk) = none := by simpa using known
    by_cases wanted : gvk = f.gvk
    · simp [wanted, List.find?_append, none]
    · have skip : [f].find? (·.gvk == gvk) = Option.none := by simp [Ne.symm wanted]
      simp [wanted, List.find?_append, skip]

@[simp] theorem put_cached (p : Provider) (f : Feed) : (p.put f).cached = p.cached := by
  rw [put]
  split <;> rfl

@[simp] theorem put_failing (p : Provider) (f : Feed) : (p.put f).failing = p.failing := by
  rw [put]
  split <;> rfl

@[simp] theorem fail_feed (p : Provider) (gvk : Gvk) (e : WatchError) :
    (p.fail gvk e).feed = p.feed := rfl

end Provider

namespace Cache

/-- A report changes the store of its kind alone. -/
theorem store?_apply (c : Cache) (gvk g : Gvk) (e : WatchEvent) :
    (c.apply gvk e).store? g =
      (c.store? g).map fun s => if g = gvk then s.apply e else s := by
  have same : ((fun entry : Gvk × Store => entry.1 == g) ∘ fun (h, (s : Store)) =>
      if h == gvk then (h, s.apply e) else (h, s)) = fun entry => entry.1 == g := by
    funext ⟨h, s⟩
    by_cases here : h = gvk <;> simp [here]
  simp only [store?, apply]
  rw [List.find?_map, same]
  cases found : c.stores.find? (·.1 == g) with
  | none => rfl
  | some entry =>
      have here : entry.1 = g := by simpa using List.find?_some found
      by_cases wanted : g = gvk <;> simp [here, wanted]

/-- Attaching a store succeeds for a kind without one, and gives it an empty
one. -/
theorem attach_eq_ok {c c' : Cache} {gvk : Gvk} :
    c.attach gvk = .ok c' ↔
      c.store? gvk = none ∧ c' = ⟨c.stores ++ [(gvk, default)]⟩ := by
  rw [attach, contains]
  cases found : c.store? gvk <;> simp [eq_comm]

theorem store?_attached (c : Cache) (gvk : Gvk) (fresh : c.store? gvk = none) :
    (⟨c.stores ++ [(gvk, default)]⟩ : Cache).store? =
      Function.update c.store? gvk (some {}) := by
  funext g
  by_cases wanted : g = gvk
  · subst wanted
    have none : c.stores.find? (·.1 == g) = none := by simpa [store?] using fresh
    simp [store?, List.find?_append, none]
    rfl
  · simp [store?, List.find?_append, wanted, Ne.symm wanted]

end Cache

namespace Path

variable {p : Path} {t u : TaskId} {r : Role} {alone : Prop}

/-- What neither a key that is handed out nor anything that comes in touches. -/
structure Untouched (p p' : Path) : Prop where
  table : p'.table = p.table
  cached : p'.cached = p.cached
  store : p'.store = p.store
  looks : p'.looks = p.looks
  channel : p'.channel = p.channel
  fired : p'.fired = p.fired
  gate : p'.gate = p.gate

theorem Take.untouched {p' : Path} {key : String} (take : Take t key p p') : p.Untouched p' := by
  cases take
  exact ⟨rfl, rfl, rfl, rfl, rfl, rfl, rfl⟩

theorem Take.feed {p' : Path} {key : String} (take : Take t key p p') : p'.feed = p.feed := by
  cases take
  rfl

theorem Inflow.untouched {p' : Path} {gvk : Gvk} {f : Feed} (inflow : Inflow gvk f p p') :
    p.Untouched p' := by
  cases inflow
  exact ⟨rfl, rfl, rfl, rfl, rfl, rfl, rfl⟩

/-- What comes in leaves the keys, the tasks and what is recorded as they are. -/
theorem Inflow.keeps {p' : Path} {gvk : Gvk} {f : Feed} (inflow : Inflow gvk f p p') :
    p'.queue = p.queue ∧ p'.role = p.role ∧ p'.record = p.record := by
  cases inflow
  exact ⟨rfl, rfl, rfl⟩

@[simp] theorem become_role_self : (p.become t r).role t = r := Function.update_self ..

theorem become_role_of_ne (h : u ≠ t) : (p.become t r).role u = p.role u :=
  Function.update_of_ne h ..

theorem feedAt_feed_of_ne {gvk g : Gvk} {f : Feed} (h : g ≠ gvk) :
    (p.feedAt gvk f).feed g = p.feed g := Function.update_of_ne h ..

/-- What a new feed of a kind leaves as it was is as it was for every kind. -/
theorem feedAt_congr {α : Type} {gvk : Gvk} {f : Feed} (part : Feed → α)
    (same : part f = part (p.feed gvk)) (g : Gvk) :
    part ((p.feedAt gvk f).feed g) = part (p.feed g) := by
  by_cases here : g = gvk
  · subst here
    simpa using same
  · rw [feedAt_feed_of_ne here]

@[simp] theorem become_become {r' : Role} : (p.become t r).become t r' = p.become t r' := by
  simp [become]

@[simp] theorem become_withChannel (c : Channel) :
    (p.become t r).withChannel c = (p.withChannel c).become t r := rfl

theorem become_eq_self (h : p.role t = r) : p.become t r = p := by
  simp [become, ← h]

theorem reschedule_eq_self {s : Schedule} (h : p.schedule = s) : p.reschedule s = p := by
  simp [reschedule, ← h]

@[simp] theorem abandon_nil : p.abandon [] = p := by simp [abandon]

@[simp] theorem abandon_abandon : r.abandon.abandon = r.abandon := by
  cases r with
  | pump q => by_cases ended : q.state = .ended <;> simp [Role.abandon, ended]
  | _ => rfl

/-- Marking pumps leaves everything else as it is. -/
theorem abandon_role_eq_iff {ts : List TaskId} (other : ∀ q, r ≠ .pump q) :
    (p.abandon ts).role t = r ↔ p.role t = r := by
  rw [abandon_role]
  split
  · cases p.role t with
    | pump q =>
        have ne : (Role.pump q).abandon ≠ r := by
          by_cases ended : q.state = .ended
          · simpa [Role.abandon, ended] using (other _).symm
          · simpa [Role.abandon, ended] using (other _).symm
        exact ⟨fun h => absurd h ne, fun h => absurd h.symm (other q)⟩
    | _ => rfl
  · rfl

/-- A pump that was marked is the same otherwise, and is to end unless it has
ended. -/
theorem role_of_abandon {ts : List TaskId} {q' : Pump} (h : (p.abandon ts).role t = .pump q') :
    p.role t = .pump q' ∨ ∃ q, p.role t = .pump q ∧ q.state ≠ .ended ∧
      q' = { q with aborted := true } := by
  rw [abandon_role] at h
  split at h
  · cases pump : p.role t with
    | pump q =>
        by_cases ended : q.state = .ended
        · simp only [pump, Role.abandon, ended, if_true] at h
          exact .inl h
        · simp only [pump, Role.abandon, ended, if_false, Role.pump.injEq] at h
          exact .inr ⟨q, rfl, ended, h.symm⟩
    | _ => simp [pump, Role.abandon] at h
  · exact .inl h

/-- Pumps are marked one after the other. -/
theorem abandon_cons (ts : List TaskId) :
    p.abandon (t :: ts) = (p.become t (p.role t).abandon).abandon ts := by
  simp only [abandon, become, Path.mk.injEq, true_and]
  funext u
  by_cases same : u = t
  · subst same
    simp
  · simp [same]

/-- Tasks may be made ready, timers may change, and somebody may begin or cease to
wait for a change; nothing else happens. -/
def Stirs (p p' : Path) : Prop :=
  ∃ listener schedule, p.schedule.Keeps schedule ∧
    p' = (p.withChannel { p.channel with listener }).reschedule schedule

theorem Stirs.refl (p : Path) : p.Stirs p := ⟨p.channel.listener, p.schedule, .refl _, rfl⟩

theorem Stirs.trans {p₁ p₂ p₃ : Path} (h : p₁.Stirs p₂) (h' : p₂.Stirs p₃) : p₁.Stirs p₃ := by
  obtain ⟨_, _, keeps, rfl⟩ := h
  obtain ⟨listener, schedule, keeps', rfl⟩ := h'
  exact ⟨listener, schedule, keeps.trans keeps', rfl⟩

theorem stirs_reschedule {schedule : Schedule} (keeps : p.schedule.Keeps schedule) :
    p.Stirs (p.reschedule schedule) := ⟨p.channel.listener, schedule, keeps, rfl⟩

/-- What leaves the schedule and the listener alone may as well be done first. -/
theorem Stirs.map {p' : Path} (h : p.Stirs p') (f : Path → Path)
    (commutes : ∀ l s, f ((p.withChannel { p.channel with listener := l }).reschedule s) =
      ((f p).withChannel { (f p).channel with listener := l }).reschedule s)
    (schedule : (f p).schedule = p.schedule) : (f p).Stirs (f p') := by
  obtain ⟨l, s, keeps, rfl⟩ := h
  exact ⟨l, s, by rw [schedule]; exact keeps, commutes l s⟩

theorem Stirs.become {p' : Path} (h : p.Stirs p') (t : TaskId) (r : Role) :
    (p.become t r).Stirs (p'.become t r) := h.map (·.become t r) (fun _ _ => rfl) rfl

theorem Stirs.steps {p' : Path} (h : p.Stirs p') : Steps alone p p' := by
  obtain ⟨listener, schedule, keeps, rfl⟩ := h
  exact .tail (.single (.listen listener)) (.wake schedule keeps)

end Path

namespace Engine

open ResourceWatch.Path

variable {w : Engine} {t : TaskId} {task : EngineTask} {alone : Prop}

theorem role_eq (found : w.tasks[t]? = some task) : w.role t = task.role := by
  simp [role, found]

theorem role_of_le (h : w.tasks.length ≤ t) : w.role t = .bystander := by
  simp [role, h]

@[simp] theorem path_note (w : Engine) (o : Occurrence) :
    (w.note o).path = if o.isMilestone then w.path.note o else w.path := by
  by_cases h : o.isMilestone <;> simp [note, path, onDesk, Desk.note, Path.note, h] <;> rfl

@[simp] theorem log_path (w : Engine) (events : List LogEvent) : (w.log events).path = w.path := by
  rw [log]
  induction events generalizing w with
  | nil => rfl
  | cons e events ih =>
      rw [List.foldl_cons, ih]
      simp [Occurrence.isMilestone]

@[simp] theorem log_tasks (w : Engine) (events : List LogEvent) :
    (w.log events).tasks = w.tasks := by
  rw [log]
  induction events generalizing w with
  | nil => rfl
  | cons e events ih => rw [List.foldl_cons, ih]; rfl

@[simp] theorem path_wakeAll (w : Engine) (ts : List TaskId) :
    (w.wakeAll ts).path = w.path.reschedule (w.shop.schedule.wakeAll ts) := rfl

theorem path_setTask (h : t < w.tasks.length) (task : EngineTask) :
    (w.setTask t task).path = w.path.become t task.role := by
  have same : (w.setTask t task).role = Function.update w.role t task.role := by
    funext u
    by_cases e : u = t
    · subst e
      simp [role, setTask, h]
    · simp [role, setTask, Function.update_of_ne e, List.getElem?_set_ne (Ne.symm e)]
  simp only [path, Path.become, same]
  rfl

theorem path_setTask_of_role {old : EngineTask} (found : w.tasks[t]? = some old)
    (task : EngineTask) (same : task.role = old.role) : (w.setTask t task).path = w.path := by
  rw [path_setTask (List.getElem?_eq_some_iff.1 found).1]
  exact become_eq_self ((role_eq found).trans same.symm)

theorem path_spawn (w : Engine) (task : EngineTask) :
    (w.spawn task).path = (w.path.become w.nextTask task.role).reschedule
      (w.shop.schedule.wakeAll [w.nextTask]) := by
  have same : (w.spawn task).role = Function.update w.role w.nextTask task.role := by
    funext u
    by_cases e : u = w.nextTask
    · subst e
      simp [role, spawn, nextTask, wakeAll, onDesk]
    · simp only [role, spawn, wakeAll, onDesk, Function.update_of_ne e]
      obtain h | h := Nat.lt_or_gt_of_ne e
      · rw [List.getElem?_append_left h]
      · have past : (w.tasks ++ [task]).length ≤ u := by
          rw [List.length_append]
          exact h
        rw [List.getElem?_eq_none past, List.getElem?_eq_none (Nat.le_of_lt h)]
  simp only [path, Path.become, same]
  rfl

theorem spawn_role_of_lt {u : TaskId} (h : u < w.tasks.length) :
    (w.spawn task).role u = w.role u := by
  have other : u ≠ w.nextTask := Nat.ne_of_lt h
  have same := congrArg (Path.role · u) (w.path_spawn task)
  simpa [Function.update_of_ne other] using same

theorem spawn_found {old : EngineTask} (found : w.tasks[t]? = some old) :
    (w.spawn task).tasks[t]? = some old := by
  have known := (List.getElem?_eq_some_iff.1 found).1
  simpa [spawn, wakeAll, onDesk, List.getElem?_append_left known] using found

/-- A task is there after another was started: it was there, or it is the new one. -/
theorem spawn_was {other : EngineTask} (found : (w.spawn task).tasks[t]? = some other) :
    w.tasks[t]? = some other ∨ t = w.nextTask ∧ other = task := by
  have found : (w.tasks ++ [task])[t]? = some other := found
  obtain old | new := Nat.lt_or_ge t w.tasks.length
  · exact .inl ((List.getElem?_append_left old).symm.trans found)
  · rw [List.getElem?_append_right new] at found
    obtain ⟨lt, rfl⟩ := List.getElem?_eq_some_iff.1 found
    have late : t - w.tasks.length < 1 := lt
    exact .inr ⟨Nat.le_antisymm (Nat.sub_eq_zero_iff_le.1 (Nat.lt_one_iff.1 late)) new, by simp⟩

@[simp] theorem spawn_length (w : Engine) (task : EngineTask) :
    (w.spawn task).tasks.length = w.tasks.length + 1 := by
  simp [spawn, wakeAll, onDesk]

theorem stirs_spawn (w : Engine) (aside : task.role = .bystander) :
    w.path.Stirs (w.spawn task).path := by
  rw [path_spawn, aside, become_eq_self (role_of_le (Nat.le_refl _))]
  exact stirs_reschedule (Schedule.keeps_wakeAll _ _)

theorem stirs_wakeAll (w : Engine) (ts : List TaskId) : w.path.Stirs (w.wakeAll ts).path :=
  stirs_reschedule (Schedule.keeps_wakeAll _ _)

theorem stirs_wakeListener (w : Engine) : w.path.Stirs w.wakeListener.path :=
  ⟨none, _, Schedule.keeps_wakeAll _ _, rfl⟩

theorem stirs_noticeSilence (w : Engine) : w.path.Stirs w.noticeSilence.path := by
  rw [noticeSilence]
  split
  · exact .refl _
  · exact w.stirs_wakeListener

theorem mem_tasksWhere {f : EngineTask → Bool} :
    t ∈ w.tasksWhere f ↔ ∃ task, w.tasks[t]? = some task ∧ f task = true := by
  rw [tasksWhere]
  cases found : w.tasks[t]? with
  | none => simp [found]
  | some task =>
      obtain ⟨h, rfl⟩ := List.getElem?_eq_some_iff.1 found
      simp [h]

theorem role_eq_pump {q : Pump} : w.role t = .pump q ↔ w.tasks[t]? = some (.pump q) := by
  rw [role]
  cases found : w.tasks[t]? with
  | none => simp
  | some task =>
      simp only [Option.map_some, Option.getD_some, Option.some.injEq]
      constructor
      · intro h
        unfold EngineTask.role at h
        split at h <;> simp_all
      · rintro rfl
        rfl

theorem steps_fire (w : Engine) : Steps alone w.path w.fire.path := by
  rw [fire]
  split
  · exact .refl
  · refine .single (.fire _ (Schedule.keeps_wakeAll _ _) ?_)
    intro t q pump live
    refine Schedule.mem_wakeAll.2 (.inr (mem_tasksWhere.2 ⟨_, role_eq_pump.1 pump, ?_⟩))
    simpa [EngineTask.heedsToken] using live

theorem fire_fired (w : Engine) : w.fire.fired = true := by
  rw [fire]
  split
  · assumption
  · rfl

@[simp] theorem fire_tasks (w : Engine) : w.fire.tasks = w.tasks := by
  rw [fire]
  split <;> rfl

theorem stirs_settleGate (w : Engine) (outcome : SyncState) :
    Stirs { w.path with gate := w.gate.settle outcome } (w.settleGate outcome).path :=
  stirs_reschedule (Schedule.keeps_wakeAll _ _)

theorem stirs_dropSpare (w : Engine) : Stirs { w.path with spare := false } w.dropSpare.path :=
  stirs_noticeSilence { w with spare := false }

theorem stirs_setTimer (w : Engine) (t : TaskId) (limit : Duration) :
    w.path.Stirs (w.setTimer t limit).1.path := stirs_reschedule (Schedule.keeps_setTimer _ _ _)

theorem stirs_clearTimers (w : Engine) (t : TaskId) : w.path.Stirs (w.clearTimers t).path :=
  stirs_reschedule (Schedule.keeps_clearTimers _ _)

theorem pump?_eq_some {q : Pump} : w.pump? t = some q ↔ w.role t = .pump q := by
  rw [role_eq_pump]
  rw [pump?]
  split <;> simp_all

/-- What is to end is marked, and made ready unless it has ended. -/
theorem path_abort_singleton (w : Engine) (t : TaskId) :
    ∃ schedule, w.shop.schedule.Keeps schedule ∧
      (∀ q, w.role t = .pump q → q.state ≠ .ended → t ∈ schedule.ready) ∧
      (w.abort [t]).path = (w.path.become t (w.role t).abandon).reschedule schedule ∧
      (w.abort [t]).tasks.length = w.tasks.length := by
  have same (h : (w.role t).abandon = w.role t) :
      w.path = (w.path.become t (w.role t).abandon).reschedule w.shop.schedule := by
    rw [h, become_eq_self (by simp), reschedule_eq_self (by simp)]
  simp only [abort, List.foldl_cons, List.foldl_nil]
  cases found : w.pump? t with
  | none =>
      have other (q : Pump) : w.role t ≠ .pump q := by
        intro h
        simp [pump?_eq_some.2 h] at found
      refine ⟨w.shop.schedule, .refl _, fun q h => absurd h (other q), same ?_, rfl⟩
      unfold Role.abandon
      split <;> simp_all
  | some q =>
      have pump : w.role t = .pump q := pump?_eq_some.1 found
      have known := (List.getElem?_eq_some_iff.1 (role_eq_pump.1 pump)).1
      dsimp only
      split
      · rename_i ended
        refine ⟨w.shop.schedule, .refl _, ?_, same ?_, rfl⟩
        · intro q' h live
          simp_all
        · simp [pump, Role.abandon, ended]
      · rename_i live
        refine ⟨_, Schedule.keeps_wakeAll _ [t], ?_, ?_, ?_⟩
        · intro _ _ _
          exact Schedule.mem_wakeAll.2 (.inr (List.mem_singleton.2 rfl))
        · rw [path_wakeAll, path_setTask known, pump]
          simp [Role.abandon, live, EngineTask.role, setTask]
        · simp [setTask, wakeAll, onDesk]

/-- What are to end are marked, and made ready unless they have ended. -/
theorem path_abort (w : Engine) (ts : List TaskId) :
    ∃ schedule, w.shop.schedule.Keeps schedule ∧
      (∀ t ∈ ts, ∀ q, w.role t = .pump q → q.state ≠ .ended → t ∈ schedule.ready) ∧
      (w.abort ts).path = (w.path.abandon ts).reschedule schedule ∧
      (w.abort ts).tasks.length = w.tasks.length := by
  induction ts generalizing w with
  | nil => exact ⟨w.shop.schedule, .refl _, by simp, by simp [abort, reschedule_eq_self], rfl⟩
  | cons t ts ih =>
      obtain ⟨first, keeps, woken, marked, length⟩ := w.path_abort_singleton t
      obtain ⟨last, keeps', woken', marked', length'⟩ := ih (w.abort [t])
      have then_first : (w.abort [t]).shop.schedule = first := congrArg Path.schedule marked
      rw [then_first] at keeps'
      refine ⟨last, keeps.trans keeps', ?_, ?_, length'.trans length⟩
      · intro u hu q pump live
        by_cases same : u = t
        · subst same
          exact keeps' u (woken q pump live)
        · refine woken' u ((List.mem_cons.1 hu).resolve_left same) q ?_ live
          have other := congrArg (Path.role · u) marked
          simpa [Function.update_of_ne same, pump] using other
      · have split : w.abort (t :: ts) = (w.abort [t]).abort ts := rfl
        rw [split, marked', marked, abandon_cons]
        rfl

end Engine

end ResourceWatch
