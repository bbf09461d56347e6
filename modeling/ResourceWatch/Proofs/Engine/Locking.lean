import ResourceWatch.Proofs.Engine.Watchful

/-!
# Who uses the kept registration

One task at a time uses the registration that is kept from outside; the others wait in the
order in which they asked. Everybody in that queue is a call that uses the registration or
waits to, and stands there once: a call leaves the queue when it ends, when it takes the
registration with it, and when it is given up. So when nothing can move and no stream is
watched any more, nobody is in the queue.
-/

namespace ResourceWatch

/-- Whether a task uses the kept registration, or waits to use it. -/
def EngineTask.usesKept : EngineTask → Bool
  | .hydration (.locking ..) | .hydration (.hydrating ..) | .join .locking => true
  | _ => false

namespace Engine

variable {options : EngineOptions} {plan : WatchPlan} {w w' : Engine} {t u : TaskId}
  {task : EngineTask} {x : Happening Command} {past : Past Engine Command}
  {lock lock' : List TaskId} {stays : Bool}

/-- A task may enter a queue or leave it; it is there afterwards only if it stays. Nobody
else enters. -/
structure Leaves (t : TaskId) (stays : Bool) (lock lock' : List TaskId) : Prop where
  once : lock'.Nodup
  users : ∀ u ∈ lock', u = t ∧ stays = true ∨ u ≠ t ∧ u ∈ lock

theorem Leaves.refl (once : lock.Nodup) (there : t ∈ lock → stays = true) :
    Leaves t stays lock lock := by
  refine ⟨once, fun u member => ?_⟩
  by_cases same : u = t
  · exact .inl ⟨same, there (same ▸ member)⟩
  · exact .inr ⟨same, member⟩

theorem leaves_acquire (once : w.lock.Nodup) (t : TaskId) :
    Leaves t true w.lock (w.acquire t).1.lock := by
  rw [acquire]
  split
  · exact .refl once fun _ => rfl
  · rename_i absent
    have absent : t ∉ w.lock := by simpa using absent
    refine ⟨List.nodup_append.2 ⟨once, by simp, ?_⟩, fun u member => ?_⟩
    · rintro u member v last rfl
      exact absent (List.mem_singleton.1 last ▸ member)
    · obtain old | new := List.mem_append.1 member
      · exact .inr ⟨fun same => absent (same ▸ old), old⟩
      · exact .inl ⟨List.mem_singleton.1 new, rfl⟩

theorem Leaves.release (h : Leaves t true lock w.lock) :
    Leaves t false lock (w.release t).lock := by
  refine ⟨h.once.erase t, fun u member => ?_⟩
  obtain ⟨other, there⟩ := (List.Nodup.mem_erase_iff h.once).1 member
  obtain ⟨same, -⟩ | old := h.users u there
  · exact absurd same other
  · exact .inr old

/-- Everybody in the queue uses the kept registration or waits to, and stands there once. -/
structure Lined (w : Engine) : Prop where
  once : w.lock.Nodup
  users : ∀ t ∈ w.lock, ∃ task, w.tasks[t]? = some task ∧ task.usesKept = true

def keepsPlace (w : Engine) (t : TaskId) : Bool := w.tasks[t]?.any EngineTask.usesKept

theorem Lined.there (h : w.Lined) (found : w.tasks[t]? = some task) (member : t ∈ w.lock) :
    task.usesKept = true := by
  obtain ⟨task', found', uses⟩ := h.users t member
  cases found.symm.trans found'
  exact uses

theorem leaves_found (found : w.tasks[t]? = some task)
    (leaves : Leaves t task.usesKept lock w.lock) : Leaves t (w.keepsPlace t) lock w.lock := by
  rw [keepsPlace, found]
  exact leaves

theorem leaves_setTask (found : w.tasks[t]? = some task) (new : EngineTask)
    (leaves : Leaves t new.usesKept lock w.lock) :
    Leaves t ((w.setTask t new).keepsPlace t) lock (w.setTask t new).lock :=
  leaves_found (w := w.setTask t new) (setTask_self found new) leaves

theorem leaves_actHydration (h : w.Lined) {call : HydrationCall}
    (found : w.tasks[t]? = some (.hydration call)) :
    Leaves t ((w.actHydration t call).1.keepsPlace t) w.lock (w.actHydration t call).1.lock := by
  have same (stays : Bool) (runs : (EngineTask.hydration call).usesKept = true → stays = true) :
      Leaves t stays w.lock w.lock := .refl h.once fun member => runs (h.there found member)
  cases call with
  | locking limit token =>
      have acquired := leaves_acquire h.once t
      have tasks := w.acquire_tasks t
      simp only [actHydration]
      split
      all_goals
        rename_i w₁ answered
        rw [answered] at acquired tasks
        have found₁ : w₁.tasks[t]? = some (.hydration (.locking limit token)) := tasks ▸ found
      · exact leaves_found found₁ acquired
      · split
        · exact leaves_setTask (w := w₁.release t) found₁ _ acquired.release
        · exact leaves_setTask (w := { w₁ with kept := _ }) found₁ _ acquired
  | hydrating pending limit due token =>
      simp only [actHydration]
      split
      · exact leaves_setTask found _ (same _ id)
      · exact leaves_setTask (w := (w.clearTimers t).release t) found _
          (Leaves.release (w := w.clearTimers t) (same true fun _ => rfl))
  | ended | dropped => exact leaves_setTask found _ (same _ id)

theorem leaves_actJoin (h : w.Lined) {call : JoinCall}
    (found : w.tasks[t]? = some (.join call)) :
    Leaves t ((w.actJoin t call).1.keepsPlace t) w.lock (w.actJoin t call).1.lock := by
  have same (stays : Bool) (runs : (EngineTask.join call).usesKept = true → stays = true) :
      Leaves t stays w.lock w.lock := .refl h.once fun member => runs (h.there found member)
  cases call with
  | locking =>
      have acquired := leaves_acquire h.once t
      have tasks := w.acquire_tasks t
      simp only [actJoin]
      split
      all_goals
        rename_i w₁ answered
        rw [answered] at acquired tasks
        have found₁ : w₁.tasks[t]? = some (.join .locking) := tasks ▸ found
      · exact leaves_found found₁ acquired
      · split
        · exact leaves_setTask (w := w₁.release t) found₁ _ acquired.release
        · rename_i r _
          exact leaves_setTask (w := { w₁ with kept := none }.release t) found₁
            (.join (.joining r.pumps)) (Leaves.release (w := { w₁ with kept := none }) acquired)
  | joining pumps =>
      simp only [actJoin]
      split
      · exact leaves_setTask found _ (same _ (by simp [EngineTask.usesKept]))
      · exact leaves_found found (same _ id)
  | ended => exact leaves_setTask found _ (same _ id)

/-- Whoever goes on leaves the queue in order. -/
theorem leaves_act (h : w.Lined) (t : TaskId) :
    Leaves t ((w.act t).1.keepsPlace t) w.lock (w.act t).1.lock := by
  have aside (same : (w.act t).1.lock = w.lock)
      (out : ∀ task, w.tasks[t]? = some task → task.usesKept = false) :
      Leaves t ((w.act t).1.keepsPlace t) w.lock (w.act t).1.lock := by
    rw [same]
    refine .refl h.once fun member => ?_
    obtain ⟨task, found, uses⟩ := h.users t member
    cases (out task found).symm.trans uses
  cases found : w.tasks[t]? with
  | none =>
      refine aside ?_ (by simp [found])
      simp only [act, found]
  | some task =>
      have out (idle : task.usesKept = false) (other : EngineTask)
          (there : w.tasks[t]? = some other) : other.usesKept = false := by
        cases found.symm.trans there
        exact idle
      cases task with
      | hydration call =>
          simp only [act, found]
          exact leaves_actHydration h found
      | join call =>
          simp only [act, found]
          exact leaves_actJoin h found
      | startup state =>
          refine aside ?_ (out rfl)
          obtain ⟨_, _, _, same, -⟩ := w.actStartup_terms t state
          simp only [act, found]
          exact congrArg Terms.lock same
      | pipeline state =>
          refine aside ?_ (out rfl)
          obtain ⟨_, same⟩ := w.actPipeline_terms t state
          simp only [act, found]
          exact congrArg Terms.lock same
      | _ => exact aside (congrArg Terms.lock (act_terms found rfl)) (out rfl)

theorem Lined.still (h : w.Lined) (t : TaskId) : Leaves t (w.keepsPlace t) w.lock w.lock := by
  refine .refl h.once fun member => ?_
  obtain ⟨task, found, uses⟩ := h.users t member
  simpa [keepsPlace, found] using uses

theorem usesKept_fire (call : HydrationCall) :
    (EngineTask.hydration call.fire).usesKept = (EngineTask.hydration call).usesKept := by
  cases call with
  | locking limit token => cases token <;> rfl
  | hydrating pending limit due token => cases token <;> rfl
  | ended | dropped => rfl

/-- Whoever goes on, or is told anything, leaves the queue in order. -/
theorem leaves_effect (h : w.Lined) (acting : actor? x = some t) :
    Leaves t ((w.effect x).keepsPlace t) w.lock (w.effect x).lock := by
  cases x with
  | move u =>
      cases acting
      exact leaves_act h t
  | elapse time => cases acting
  | command c =>
      cases c with
      | fireCall u =>
          cases acting
          simp only [effect, apply, fireCall]
          split
          · rename_i call found
            refine leaves_setTask found _ (.refl h.once fun member => ?_)
            rw [usesKept_fire]
            exact h.there found member
          · exact h.still t
      | dropCall u =>
          cases acting
          have given := Leaves.release (w := w.clearTimers t) (.refl (t := t) h.once fun _ => rfl)
          simp only [effect, apply, dropHydration]
          split
          · rename_i found
            exact leaves_setTask (w := (w.clearTimers t).release t) found _ given
          · rename_i found
            exact leaves_setTask (w := (w.clearTimers t).release t) found _ given
          · exact h.still t
      | _ => cases acting

/-- Whatever happens, the queue stays in order. -/
theorem Lined.after (h : w.Lined) (watchful : w.Watchful)
    (possible : conduct.Possible past w x) : (conduct.after w x).Lined := by
  have passes := passes_after watchful possible
  have others (u : TaskId) (other : actor? x ≠ some u) (member : u ∈ w.lock) :
      ∃ task, (conduct.after w x).tasks[u]? = some task ∧ task.usesKept = true := by
    obtain ⟨task, found, uses⟩ := h.users u member
    exact ⟨task, passes.same u task other (by rintro q rfl; cases uses) found, uses⟩
  obtain ⟨s, same⟩ := w.after_eq x
  have lock : (conduct.after w x).lock = (w.effect x).lock := by rw [same]; rfl
  cases acting : actor? x with
  | none =>
      have still : (w.effect x).lock = w.lock := by
        cases x with
        | move => cases acting
        | elapse => rfl
        | command c =>
            exact (w.apply_spares c).lock fun t given => by simp [given, actor?] at acting
      rw [still] at lock
      exact ⟨lock ▸ h.once, fun u member => others u (by simp [acting]) (lock ▸ member)⟩
  | some t =>
      have leaves := leaves_effect h acting
      refine ⟨lock ▸ leaves.once, fun u member => ?_⟩
      obtain ⟨rfl, stays⟩ | ⟨other, there⟩ := leaves.users u (lock ▸ member)
      · rw [same]
        exact (Option.any_eq_true _ _).1 stays
      · exact others u (by simpa [acting] using other.symm) there

theorem lined_of_run (run : conduct.Run (ofPlan options plan) past w) : w.Lined := by
  induction run with
  | start => exact ⟨.nil, by simp [ofPlan]⟩
  | next run possible ih => exact ih.after (watchful_of_run run) possible

/-- When nothing can move and no stream is watched any more, nobody is in the queue. -/
theorem lock_of_idle (watchful : w.Watchful) (lined : w.Lined) (idle : Cooperative.Idle w)
    (ended : ∀ (u : TaskId) (q : Pump), w.tasks[u]? = some (.pump q) → q.state = .ended) :
    w.lock = [] := by
  have told {pending : List (Gvk × TaskId)} (pends : w.Pends pending) : False := by
    cases pending with
    | nil => exact pends
    | cons entry rest =>
        obtain ⟨task, found, untold⟩ := pends
        cases task with
        | pump q => simp [EngineTask.isUntold, ended _ q found] at untold
        | _ => cases untold
  cases queue : w.lock with
  | nil => rfl
  | cons t rest =>
      have first : w.lock.head? = some t := by rw [queue]; rfl
      obtain ⟨task, found, uses⟩ := lined.users t (by simp [queue])
      have blocked := watchful.blocked idle found
      cases task with
      | hydration call =>
          cases call with
          | locking => exact absurd first blocked.2
          | hydrating => exact (told blocked.2).elim
          | ended | dropped => cases uses
      | join call =>
          cases call with
          | locking => exact absurd first blocked.2
          | joining | ended => cases uses
      | _ => cases uses

end Engine

end ResourceWatch
