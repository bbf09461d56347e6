import ResourceWatch.Proofs.Engine.Hydration

/-!
# What a task stands for

By standing where it stands, a task may stand for something about the engine. A
startup that waits for streams has a pump for every kind that is not hydrated yet, and
whoever was told that the first lists are complete, or began because they are, found
the gate open.

Whenever something happens, every task either was there before, or stands for
something that was so already. The gate opens only when a startup finds every kind of
the plan hydrated. The exception is a startup that has just opened the streams: the
pumps that it waits for are as new as itself.
-/

namespace ResourceWatch

namespace Path

variable {p p' : Path} {t : TaskId} {key : String} {alone : Prop}

theorem Stays.steps (steps : Steps alone p p') : p.Stays p' := by
  induction steps with
  | refl => exact .refl p
  | tail _ step ih => exact ih.trans step.stays

theorem Stays.take (take : Take t key p p') : p.Stays p' := by
  obtain ⟨queue, time, result, asking, -, -⟩ := take
  exact stays_become asking (by simp)

theorem Stays.advance {handed : Option String} (advance : Advance alone t handed p p') :
    p.Stays p' := by
  cases handed with
  | none => exact .steps advance
  | some key =>
      obtain ⟨p₁, take, steps⟩ := advance
      exact (Stays.take take).trans (.steps steps)

end Path

namespace Engine

open ResourceWatch.Path

variable {w w' w'' : Engine} {t : TaskId} {task : EngineTask} {gvk : Gvk}

/-- The pump of a kind has taken the mark of its stream. -/
def Hydrated (w : Engine) (gvk : Gvk) : Prop :=
  ∃ (t : TaskId) (q : Pump), w.tasks[t]? = some (.pump q) ∧ q.gvk = gvk ∧ q.hydrated = true

/-- Among the streams that are waited for is that of a kind, with its pump. -/
def Expects (w : Engine) (pending : List (Gvk × TaskId)) (gvk : Gvk) : Prop :=
  ∃ (t : TaskId) (q : Pump), (gvk, t) ∈ pending ∧ w.tasks[t]? = some (.pump q) ∧ q.gvk = gvk

/-- What a task stands for. -/
def Vouches (w : Engine) : EngineTask → Prop
  | .startup (.hydrating _ pending _) =>
    ∀ watch ∈ w.plan.watches, w.Hydrated watch.kind.gvk ∨ w.Expects pending watch.kind.gvk
  | .waiter (some (.ok ())) | .pipeline (.opening ..) | .worker _ => w.gate = .synced
  | _ => True

theorem Hydrated.stays (h : w.Hydrated gvk) (stays : w.path.Stays w'.path) :
    w'.Hydrated gvk := by
  obtain ⟨t, q, found, kind, hydrated⟩ := h
  obtain ⟨q', pump, grows⟩ := stays t q (role_eq_pump.2 found)
  exact ⟨t, q', role_eq_pump.1 pump, grows.kind.trans kind, grows.hydrated hydrated⟩

theorem Expects.stays {pending : List (Gvk × TaskId)} (h : w.Expects pending gvk)
    (stays : w.path.Stays w'.path) : w'.Expects pending gvk := by
  obtain ⟨t, q, member, found, kind⟩ := h
  obtain ⟨q', pump, grows⟩ := stays t q (role_eq_pump.2 found)
  exact ⟨t, q', member, role_eq_pump.1 pump, grows.kind.trans kind⟩

theorem Vouches.stays (h : w.Vouches task) (stays : w.path.Stays w'.path)
    (plan : w'.plan = w.plan) (gate : w.gate = .synced → w'.gate = .synced) :
    w'.Vouches task := by
  unfold Vouches at h ⊢
  split
  · intro watch member
    exact (h watch (plan ▸ member)).imp (·.stays stays) (·.stays stays)
  · exact gate h
  · exact gate h
  · exact gate h
  · trivial

/-- The plan stays, an open gate stays open and opens only for a reason, and every
task either was there at its place or is of a sort. -/
structure Brings (reason : Prop) (sort : EngineTask → Prop) (w w' : Engine) : Prop where
  plan : w'.plan = w.plan
  stays : w.gate = .synced → w'.gate = .synced
  opens : w'.gate = .synced → w.gate = .synced ∨ reason
  tasks : ∀ (t : TaskId) (task : EngineTask), w'.tasks[t]? = some task →
    w.tasks[t]? = some task ∨ sort task

namespace Brings

variable {reason : Prop} {sort : EngineTask → Prop}

theorem refl (w : Engine) : Brings reason sort w w := ⟨rfl, id, .inl, fun _ _ => .inl⟩

theorem mono {reason' : Prop} {sort' : EngineTask → Prop} (h : Brings reason sort w w')
    (reasons : reason → reason') (sorts : ∀ task, sort task → sort' task) :
    Brings reason' sort' w w' :=
  ⟨h.plan, h.stays, fun synced => (h.opens synced).imp_right reasons,
    fun t task found => (h.tasks t task found).imp_right (sorts task)⟩

/-- What leaves the plan, the gate and the tasks alone does not matter. -/
theorem alike (h : Brings reason sort w w') (plan : w''.plan = w'.plan)
    (gate : w''.gate = w'.gate) (tasks : w''.tasks = w'.tasks) : Brings reason sort w w'' :=
  ⟨plan.trans h.plan, fun synced => gate.trans (h.stays synced),
    fun synced => h.opens (gate.symm.trans synced), fun t task => tasks ▸ h.tasks t task⟩

theorem setTask (h : Brings reason sort w w') (t : TaskId) (is : sort task) :
    Brings reason sort w (w'.setTask t task) := by
  refine ⟨h.plan, h.stays, h.opens, fun u other found => ?_⟩
  rw [Engine.setTask, List.getElem?_set] at found
  split at found
  · split at found
    · cases found
      exact .inr is
    · cases found
  · exact h.tasks u other found

theorem append (h : Brings reason sort w w') (more : List EngineTask)
    (are : ∀ task ∈ more, sort task) :
    Brings reason sort w { w' with tasks := w'.tasks ++ more } := by
  refine ⟨h.plan, h.stays, h.opens, fun u other found => ?_⟩
  obtain old | new := Nat.lt_or_ge u w'.tasks.length
  · rw [List.getElem?_append_left old] at found
    exact h.tasks u other found
  · rw [List.getElem?_append_right new] at found
    exact .inr (are other (List.mem_of_getElem? found))

theorem spawn (h : Brings reason sort w w') (is : sort task) :
    Brings reason sort w (w'.spawn task) :=
  (h.append [task] (by simpa using is)).alike rfl rfl rfl

theorem call (h : Brings reason sort w w') (is : sort task) :
    Brings reason sort w (w'.call task) :=
  (h.spawn is).alike rfl rfl rfl

theorem wakeListener (h : Brings reason sort w w') : Brings reason sort w w'.wakeListener :=
  h.alike rfl rfl rfl

theorem noticeSilence (h : Brings reason sort w w') : Brings reason sort w w'.noticeSilence := by
  rw [Engine.noticeSilence]
  split
  · exact h
  · exact h.wakeListener

theorem dropSpare (h : Brings reason sort w w') : Brings reason sort w w'.dropSpare := by
  have alone : Brings reason sort w { w' with spare := false } := h.alike rfl rfl rfl
  exact alone.noticeSilence

theorem fire (h : Brings reason sort w w') : Brings reason sort w w'.fire := by
  rw [Engine.fire]
  split
  · exact h
  · exact h.alike rfl rfl rfl

theorem log (h : Brings reason sort w w') (events : List LogEvent) :
    Brings reason sort w (w'.log events) := by
  rw [Engine.log]
  induction events generalizing w' with
  | nil => exact h
  | cons e events ih =>
      have noted : Brings reason sort w (w'.note (.logged e)) := h.alike rfl rfl rfl
      exact ih noted

theorem abort (h : Brings reason sort w w') (pumps : ∀ q, sort (.pump q)) (ts : List TaskId) :
    Brings reason sort w (w'.abort ts) := by
  rw [Engine.abort]
  induction ts generalizing w' with
  | nil => exact h
  | cons t ts ih =>
      refine ih ?_
      dsimp only
      split
      · split
        · exact h
        · exact (h.setTask t (pumps _)).alike rfl rfl rfl
      · exact h

theorem settleGate {outcome : SyncState} (h : Brings reason sort w w')
    (why : outcome = .synced → reason) : Brings reason sort w (w'.settleGate outcome) := by
  refine ⟨h.plan, fun synced => ?_, fun synced => ?_, h.tasks⟩
  · show w'.gate.settle outcome = .synced
    simp [SyncState.settle, h.stays synced]
  · have settled : w'.gate.settle outcome = .synced := synced
    rw [SyncState.settle] at settled
    split at settled
    · exact .inr (why settled)
    · exact h.opens settled

theorem endStartup (h : Brings reason sort w w') (t : TaskId)
    {result : Except WatchError Registration} (ended : sort (.startup (.ended result))) :
    Brings reason sort w (w'.endStartup t result) := by
  simp only [Engine.endStartup]
  cases result with
  | error e => exact (h.setTask t ended).alike rfl rfl rfl
  | ok r =>
      dsimp only
      split
      · have keeps : Brings reason sort w { w' with kept := some r } := h.alike rfl rfl rfl
        exact (keeps.setTask t ended).alike rfl rfl rfl
      · exact (h.setTask t ended).alike rfl rfl rfl

theorem acquire (h : Brings reason sort w w') (t : TaskId) :
    Brings reason sort w (w'.acquire t).1 := by
  rw [Engine.acquire]
  dsimp only
  split
  · exact h
  · exact h.alike rfl rfl rfl

theorem release (h : Brings reason sort w w') (t : TaskId) :
    Brings reason sort w (w'.release t) :=
  h.alike rfl rfl rfl

theorem dropKept (h : Brings reason sort w w') (pumps : ∀ q, sort (.pump q)) :
    Brings reason sort w w'.dropKept := by
  rw [Engine.dropKept]
  split
  · have lets : Brings reason sort w { w' with kept := none } := h.alike rfl rfl rfl
    exact lets.abort pumps _
  · exact h

theorem openStreams (h : Brings reason sort w w') (pumps : ∀ q, sort (.pump q))
    (r : Registration) (watches : List PlannedWatch) :
    Brings reason sort w (w'.openStreams r watches).1 := by
  induction watches generalizing w' r with
  | nil => exact h
  | cons watch rest ih =>
      rw [Engine.openStreams]
      split
      · exact h.abort pumps _
      · dsimp only
        split
        · rename_i provider e _
          have asked : Brings reason sort w { w' with provider } := h.alike rfl rfl rfl
          exact asked.abort pumps _
        · rename_i provider cache _
          have asked : Brings reason sort w
              { w' with provider, shop := { w'.shop with cache } } := h.alike rfl rfl rfl
          exact ih (asked.spawn (pumps _)) _

theorem register (h : Brings reason sort w w') (pumps : ∀ q, sort (.pump q)) :
    Brings reason sort w w'.register.1 := by
  have opened := h.openStreams pumps {} w'.plan.watches
  rw [Engine.register]
  split
  all_goals
    rename_i answered
    rw [answered] at opened
    exact opened.alike rfl rfl rfl

theorem endPump (h : Brings reason sort w w') (pumps : ∀ q, sort (.pump q)) (t : TaskId)
    (q : Pump) : Brings reason sort w (w'.endPump t q) := by
  have withdrawn : Brings reason sort w { w' with channel := (w'.channel.withdraw t).1 } :=
    h.alike rfl rfl rfl
  have ended := withdrawn.setTask t (pumps { q with state := .ended })
  exact noticeSilence (ended.alike rfl rfl rfl)

theorem offer (h : Brings reason sort w w') (pumps : ∀ q, sort (.pump q)) (t : TaskId)
    (q : Pump) (e : ChangeEvent) : Brings reason sort w (w'.offer t q e).1 := by
  simp only [Engine.offer]
  split
  · refine setTask ?_ t (pumps _)
    exact h.alike rfl rfl rfl
  · refine endPump ?_ pumps t q
    exact h.alike rfl rfl rfl
  · refine setTask ?_ t (pumps _)
    exact h.alike rfl rfl rfl

theorem deliver (h : Brings reason sort w w') (pumps : ∀ q, sort (.pump q)) (t : TaskId)
    (q : Pump) (item : StreamItem) : Brings reason sort w (w'.deliver t q item).1 := by
  rcases item with e | _ | _
  · exact h.alike rfl rfl rfl
  · rename_i n
    have told := h.log (w'.plan.filterTable.judge q.gvk n).2
    simp only [Engine.deliver]
    split
    · exact told.alike rfl rfl rfl
    · exact told.offer pumps t q _
  · exact (h.setTask t (pumps _)).alike rfl rfl rfl

theorem listen (h : Brings reason sort w w') (pumps : ∀ q, sort (.pump q)) (t : TaskId)
    (q : Pump) : Brings reason sort w (w'.listen t q).1 := by
  simp only [Engine.listen]
  split
  · split
    · exact h
    · exact h.endPump pumps t q
  · refine deliver ?_ pumps t q _
    exact h.alike rfl rfl rfl
  · exact h.alike rfl rfl rfl

end Brings

variable {reason : Prop}

theorem brings_actPump (w : Engine) (t : TaskId) (q : Pump) :
    Brings reason w.Vouches w (w.actPump t q).1 := by
  have start : Brings reason w.Vouches w w := .refl w
  have pumps (q : Pump) : w.Vouches (.pump q) := trivial
  simp only [actPump]
  split
  · exact start
  · split
    · exact start.endPump pumps t q
    · exact start.listen pumps t q
  · split
    · exact start.endPump pumps t q
    · exact start.offer pumps t q _

theorem brings_actSource (w : Engine) (t : TaskId) (state : Source) (recording : Bool) :
    Brings reason w.Vouches w (w.actSource t state recording).1 := by
  have told (move : Source.Move) : Brings reason w.Vouches w ((({ w with
      channel := move.channel }.setTask t (.source (Source.after move.deed) recording)).wakeAll
        move.woken).log move.log) := by
    refine Brings.log ?_ _
    have base : Brings reason w.Vouches w { w with channel := move.channel } :=
      (Brings.refl w).alike rfl rfl rfl
    have turned : w.Vouches (.source (Source.after move.deed) recording) := trivial
    exact (base.setTask t turned).alike rfl rfl rfl
  cases state with
  | ended => exact .refl w
  | fresh =>
      simp only [actSource]
      split
      · split
        · exact (told _).alike rfl rfl rfl
        · exact (told _).alike rfl rfl rfl
      · exact (told _).alike rfl rfl rfl
      · exact told _
  | running =>
      simp only [actSource]
      split
      · split
        · exact (told _).alike rfl rfl rfl
        · exact (told _).alike rfl rfl rfl
      · exact (told _).alike rfl rfl rfl
      · exact told _

/-- A call that waits for streams stays one. -/
theorem brings_actHydration (w : Engine) (t : TaskId) (call : HydrationCall) :
    Brings reason w.Vouches w (w.actHydration t call).1 := by
  have calls (call : HydrationCall) : w.Vouches (.hydration call) := trivial
  cases call with
  | locking limit token =>
      have start : Brings reason w.Vouches w w := .refl w
      have acquired := start.acquire t
      simp only [actHydration]
      split
      all_goals
        rename_i answered
        rw [answered] at acquired
      · exact acquired
      · split
        · exact (acquired.release t).setTask t (calls _)
        · refine Brings.setTask ?_ t (calls _)
          exact acquired.alike rfl rfl rfl
  | hydrating pending limit due token =>
      simp only [actHydration]
      split
      · exact (Brings.refl w).setTask t (calls _)
      · refine Brings.setTask ?_ t (calls _)
        exact (Brings.refl w).alike rfl rfl rfl
  | ended result => exact (Brings.refl w).setTask t (calls _)
  | dropped => exact (Brings.refl w).setTask t (calls _)

/-- A call that waits for the streams to end stays one. -/
theorem brings_actJoin (w : Engine) (t : TaskId) (call : JoinCall) :
    Brings reason w.Vouches w (w.actJoin t call).1 := by
  have calls (call : JoinCall) : w.Vouches (.join call) := trivial
  cases call with
  | locking =>
      have start : Brings reason w.Vouches w w := .refl w
      have acquired := start.acquire t
      simp only [actJoin]
      split
      all_goals
        rename_i answered
        rw [answered] at acquired
      · exact acquired
      · split
        · exact (acquired.release t).setTask t (calls _)
        · refine Brings.setTask ?_ t (calls _)
          exact acquired.alike rfl rfl rfl
  | joining pumps =>
      simp only [actJoin]
      split
      · exact (Brings.refl w).setTask t (calls _)
      · exact .refl w
  | ended found => exact (Brings.refl w).setTask t (calls _)

theorem brings_actWorker (w : Engine) (t : TaskId) (state : Worker) (synced : w.gate = .synced) :
    Brings reason w.Vouches w (w.actWorker t state).1 := by
  have worker (state : Worker) : w.Vouches (.worker state) := synced
  let move := state.act w.shop t w.nextTask
  let started := move.retry.map fun retry => EngineTask.delayed retry.1 (.fresh retry.2)
  have start : Brings reason w.Vouches w w := .refl w
  have turned := start.setTask t (worker move.worker)
  have delayed : ∀ task ∈ started.toList, w.Vouches task := by
    intro task member
    obtain ⟨retry, -, rfl⟩ := Option.map_eq_some_iff.1 (Option.mem_toList.1 member)
    trivial
  have grown := turned.append started.toList delayed
  simp only [actWorker]
  split
  · exact grown.alike rfl rfl rfl
  · exact grown.alike rfl rfl rfl

/-- Only an open gate is told to be open. -/
theorem synced_of_answer? {s : SyncState} {fired : Bool} (ok : s.answer? fired = some (.ok ())) :
    s = .synced := by
  cases s <;> cases fired <;> simp [SyncState.answer?] at ok ⊢

/-- The pipeline begins a worker only after it has found the gate open. -/
theorem brings_actPipeline (w : Engine) (t : TaskId) (state : Pipeline)
    (vouched : w.Vouches (.pipeline state)) :
    Brings reason w.Vouches w (w.actPipeline t state).1 := by
  have start : Brings reason w.Vouches w w := .refl w
  cases state with
  | fresh =>
      refine Brings.setTask (Brings.spawn (Brings.spawn start ?_) ?_) t ?_
      all_goals trivial
  | syncing source startup =>
      simp only [actPipeline]
      split
      · exact start
      · rename_i told
        exact start.setTask t (synced_of_answer? told)
      · exact start.fire.setTask t trivial
  | failing source startup =>
      simp only [actPipeline]
      split
      · exact start
      · split
        · exact (start.abort (fun _ => trivial) _).setTask t trivial
        · exact start.setTask t trivial
  | draining source result =>
      simp only [actPipeline]
      split
      · exact start.setTask t trivial
      · exact start
  | opening source startup =>
      have synced : w.gate = .synced := vouched
      simp only [actPipeline]
      split
      · exact start
      · exact start.setTask t trivial
      · refine Brings.setTask (Brings.spawn start ?_) t trivial
        exact synced
  | running source worker r =>
      simp only [actPipeline]
      split
      · exact start
      · refine Brings.setTask ?_ t trivial
        exact start.fire.alike rfl rfl rfl
  | stopping source worker r result =>
      simp only [actPipeline]
      split
      · exact start.setTask t trivial
      · exact start
  | ended result => exact start.setTask t trivial

/-- What is left of the streams that are waited for, and what is not. -/
theorem hydrate_eq_ok {pending rest : List (Gvk × TaskId)} (h : w.hydrate pending = .ok rest)
    (expected : w.Expects pending gvk) : w.Hydrated gvk ∨ w.Expects rest gvk := by
  obtain ⟨t, q, member, found, kind⟩ := expected
  induction pending with
  | nil => cases member
  | cons entry pending ih =>
      obtain ⟨g, u⟩ := entry
      rw [hydrate] at h
      split at h
      · rename_i p pump
        split at h
        · rename_i hydrated
          obtain same | later := List.mem_cons.1 member
          · cases same
            obtain rfl : p = q := by
              have found' := role_eq_pump.1 (pump?_eq_some.1 pump)
              simpa [found] using found'.symm
            exact .inl ⟨t, p, found, kind, hydrated⟩
          · exact ih h later
        · split at h
          · cases h
          · cases h
            exact .inr ⟨t, q, member, found, kind⟩
      · cases h

theorem hydration_cases {fired : Bool} {pending : List (Gvk × TaskId)} {limit : Duration}
    {due : Nat} :
    (∃ rest, w.hydration fired pending limit due = .ok rest ∧ w.hydrate pending = .ok rest) ∨
    (w.hydration fired pending limit due = .error (.ok ()) ∧ w.hydrate pending = .ok []) ∨
    ∃ e, w.hydration fired pending limit due = .error (.error e) := by
  simp only [hydration]
  split
  · simp
  · split
    · simp
    · rename_i hydrated
      simp [hydrated]
    · rename_i rest _ hydrated
      split
      · simp
      · simp [hydrated]

/-- Streams that are opened are waited for, each with its pump. -/
theorem openStreams_eq_ok {w w' : Engine} {r r' : Registration} {watches : List PlannedWatch}
    (opened : w.openStreams r watches = (w', .ok r')) :
    w.tasks <+: w'.tasks ∧ r.pending ⊆ r'.pending ∧
      ∀ watch ∈ watches, w'.Expects r'.pending watch.kind.gvk := by
  induction watches generalizing w r with
  | nil =>
      cases opened
      exact ⟨List.prefix_rfl, List.Subset.refl _, by simp⟩
  | cons watch rest ih =>
      rw [openStreams] at opened
      split at opened
      · cases opened
      · dsimp only at opened
        split at opened
        · cases opened
        · rename_i provider cache _
          let gvk := watch.kind.gvk
          let w₁ := { w with provider, shop := { w.shop with cache } }.spawn (.pump { gvk })
          obtain ⟨tasks, pending, expected⟩ := ih opened
          have first : w.tasks ++ [.pump { gvk }] <+: w'.tasks := tasks
          refine ⟨(List.prefix_append ..).trans first, fun entry member => ?_, ?_⟩
          · exact pending (List.mem_append_left _ member)
          · intro other member
            obtain rfl | later := List.mem_cons.1 member
            · refine ⟨w.nextTask, { gvk }, pending (by simp), ?_, rfl⟩
              obtain ⟨more, same⟩ := first
              simp [← same, nextTask]
            · exact expected other later

/-- A registration that succeeds has a pump for every kind of the plan. -/
theorem register_eq_ok {w w' : Engine} {r : Registration} (h : w.register = (w', .ok r)) :
    w.tasks <+: w'.tasks ∧ ∀ watch ∈ w.plan.watches, w'.Expects r.pending watch.kind.gvk := by
  rw [register] at h
  split at h
  · rename_i w₁ r₁ opened
    cases h
    obtain ⟨tasks, -, expected⟩ := openStreams_eq_ok opened
    exact ⟨tasks, expected⟩
  · cases h

/-- A startup that has opened the streams waits for all of them. -/
theorem vouches_of_register {w₁ : Engine} {r : Registration}
    (found : w.tasks[t]? = some (.startup .fresh)) (registered : w.register = (w₁, .ok r)) :
    (w.actStartup t .fresh).1.Vouches (.startup (.hydrating { r with pending := [] } r.pending
      (w₁.dropSpare.setTimer t w₁.limit).2)) := by
  obtain ⟨⟨more, tasks⟩, expected⟩ := register_eq_ok registered
  have began : w₁.tasks[t]? = some (.startup .fresh) := by
    rw [← tasks, List.getElem?_append_left (List.getElem?_eq_some_iff.1 found).1, found]
  have plan : w₁.dropSpare.plan = w.plan := by
    have start : Brings True (fun _ => True) w w := .refl w
    have opened := start.register fun _ => trivial
    rw [registered] at opened
    exact opened.dropSpare.plan
  have same : w₁.dropSpare.tasks = w₁.tasks := noticeSilence_tasks _
  simp only [actStartup, registered]
  intro watch member
  obtain ⟨u, q, waits, pump, kind⟩ := expected watch (plan ▸ member)
  have other : t ≠ u := by
    rintro rfl
    simp [began] at pump
  refine .inr ⟨u, q, waits, ?_, kind⟩
  rw [setTask, List.getElem?_set_ne other]
  exact same.symm ▸ pump

/-- Only startup opens the gate, and only when it has found every kind hydrated. -/
theorem brings_actStartup {sort : EngineTask → Prop} {state : Startup}
    (vouched : w.Vouches (.startup state)) (quiet : ∀ task, w.Vouches task → sort task)
    (fresh : state = .fresh → ∀ w₁ r, w.register = (w₁, .ok r) →
      sort (.startup (.hydrating { r with pending := [] } r.pending
        (w₁.dropSpare.setTimer t w₁.limit).2))) :
    Brings (∀ watch ∈ w.plan.watches, w.Hydrated watch.kind.gvk) sort w
      (w.actStartup t state).1 := by
  have start : Brings (∀ watch ∈ w.plan.watches, w.Hydrated watch.kind.gvk) sort w w := .refl w
  have cleared : Brings (∀ watch ∈ w.plan.watches, w.Hydrated watch.kind.gvk) sort w
      (w.clearTimers t) := start.alike rfl rfl rfl
  have closed : SyncState.cancelled = .synced →
      ∀ watch ∈ w.plan.watches, w.Hydrated watch.kind.gvk := by simp
  have pumps (q : Pump) : sort (.pump q) := quiet _ trivial
  have ended (result : Except WatchError Registration) : sort (.startup (.ended result)) :=
    quiet _ trivial
  cases state with
  | fresh =>
      have opened := start.register pumps
      simp only [actStartup]
      split
      · rename_i w₁ e registered
        rw [registered] at opened
        exact (opened.settleGate closed).dropSpare.endStartup t (ended (.error e))
      · rename_i w₁ r registered
        rw [registered] at opened
        refine Brings.setTask ?_ t (fresh rfl w₁ r registered)
        exact opened.dropSpare.alike rfl rfl rfl
  | hydrating r pending due =>
      have left {rest : List (Gvk × TaskId)} (hydrated : w.hydrate pending = .ok rest)
          (watch : PlannedWatch) (member : watch ∈ w.plan.watches) :
          w.Hydrated watch.kind.gvk ∨ w.Expects rest watch.kind.gvk :=
        (vouched watch member).elim .inl (hydrate_eq_ok hydrated)
      obtain ⟨rest, answer, hydrated⟩ | ⟨answer, hydrated⟩ | ⟨e, answer⟩ :=
        @hydration_cases w w.fired pending w.limit due
      · simp only [actStartup, answer]
        refine start.setTask t (quiet _ ?_)
        exact left hydrated
      · have all (watch : PlannedWatch) (member : watch ∈ w.plan.watches) :
            w.Hydrated watch.kind.gvk := by
          obtain done | ⟨u, q, none, -⟩ := left hydrated watch member
          · exact done
          · cases none
        simp only [actStartup, answer]
        refine Brings.endStartup ?_ t (ended _)
        exact (cleared.settleGate fun _ => all).alike rfl rfl rfl
      · simp only [actStartup, answer]
        refine Brings.endStartup ?_ t (ended _)
        exact (cleared.abort pumps r.pumps).settleGate closed
  | ended result => exact start.setTask t (ended result)

/-- Whenever a task goes on, every task was there or stands for something that is so,
provided that the tasks did before. -/
theorem brings_act (w : Engine) (t : TaskId)
    (vouched : ∀ (t : TaskId) (task : EngineTask), w.tasks[t]? = some task → w.Vouches task) :
    Brings (∀ watch ∈ w.plan.watches, w.Hydrated watch.kind.gvk)
      (fun task => w.Vouches task ∨ (w.act t).1.Vouches task) w (w.act t).1 := by
  have known {w' : Engine} (h : Brings (∀ watch ∈ w.plan.watches, w.Hydrated watch.kind.gvk)
      w.Vouches w w') : Brings (∀ watch ∈ w.plan.watches, w.Hydrated watch.kind.gvk)
      (fun task => w.Vouches task ∨ (w.act t).1.Vouches task) w w' :=
    h.mono id fun _ => .inl
  cases found : w.tasks[t]? with
  | none =>
      simp only [act, found] at known ⊢
      exact .refl w
  | some task =>
      have stands := vouched t task found
      cases task with
      | pump q =>
          simp only [act, found] at known ⊢
          exact known (w.brings_actPump t q)
      | source state recording =>
          simp only [act, found] at known ⊢
          exact known (w.brings_actSource t state recording)
      | startup state =>
          simp only [act, found]
          refine brings_actStartup stands (fun _ => .inl) ?_
          rintro rfl w₁ r registered
          exact .inr (vouches_of_register found registered)
      | waiter answer =>
          cases answer with
          | none =>
              simp only [act, found] at known ⊢
              refine known ((Brings.refl w).setTask t ?_)
              cases told : w.gate.answer? w.fired with
              | none => trivial
              | some answer =>
                  cases answer with
                  | error e => trivial
                  | ok => exact synced_of_answer? told
          | some answer =>
              simp only [act, found] at known ⊢
              exact .refl w
      | hydration call =>
          simp only [act, found] at known ⊢
          exact known (w.brings_actHydration t call)
      | join call =>
          simp only [act, found] at known ⊢
          exact known (w.brings_actJoin t call)
      | pipeline state =>
          simp only [act, found] at known ⊢
          exact known (w.brings_actPipeline t state stands)
      | worker state =>
          simp only [act, found] at known ⊢
          exact known (w.brings_actWorker t state stands)
      | delayed key push =>
          simp only [act, found] at known ⊢
          refine known (Brings.setTask ?_ t trivial)
          exact (Brings.refl w).alike rfl rfl rfl

/-- What is done from outside brings no task that stands for anything. -/
theorem brings_apply (w : Engine) (c : Command) :
    Brings reason w.Vouches w (w.apply c).1 := by
  have start : Brings reason w.Vouches w w := .refl w
  have pumps (q : Pump) : w.Vouches (.pump q) := trivial
  cases c with
  | start | source | run =>
      simp only [apply]
      split
      · exact Brings.call (start.alike rfl rfl rfl) trivial
      · exact start
  | waitSync | waitHydrated => exact start.call trivial
  | fireCall call =>
      have calls (state : HydrationCall) : w.Vouches (.hydration state) := trivial
      simp only [apply, fireCall]
      split
      · exact (start.setTask call (calls _)).alike rfl rfl rfl
      · exact start
  | dropCall call =>
      have dropped : Brings reason w.Vouches w
          (((w.clearTimers call).release call).setTask call (.hydration .dropped)) := by
        refine Brings.setTask ?_ call trivial
        exact start.alike rfl rfl rfl
      simp only [apply, dropHydration]
      split
      · exact dropped
      · exact dropped
      · exact start
  | register =>
      have opened := start.register pumps
      simp only [apply]
      split
      · split
        all_goals
          rename_i registered
          rw [registered] at opened
        · exact (opened.dropKept pumps).alike rfl rfl rfl
        · exact opened
      · exact start
  | join lone =>
      cases lone with
      | true => exact start.call trivial
      | false =>
          simp only [apply]
          split
          · exact Brings.call (start.alike rfl rfl rfl) trivial
          · exact start
  | dropStartup =>
      simp only [apply]
      split
      · refine Brings.settleGate (Brings.dropSpare ?_) (by simp)
        exact start.alike rfl rfl rfl
      · exact start
  | dropSource =>
      simp only [apply]
      split
      · exact start.alike rfl rfl rfl
      · exact start
  | dropRegistration =>
      simp only [apply]
      split
      · exact start.dropKept pumps
      · exact start
  | dropSpare => exact start.dropSpare
  | receive =>
      simp only [apply, receive]
      split
      · exact start.alike rfl rfl rfl
      · exact start
  | cancel => exact start.fire
  | dropReceiver | drain | pass | arrive | observe | closeStream | failOn | push | closeQueue =>
      exact start.alike rfl rfl rfl

end Engine

end ResourceWatch
