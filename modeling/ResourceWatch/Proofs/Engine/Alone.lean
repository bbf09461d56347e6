import ResourceWatch.Proofs.Engine.Parts
import ResourceWatch.Proofs.WorkQueue.Consistency

/-!
# A pipeline that runs alone

A pipeline that nobody meddles with has one startup at most, and no other source
than its own. So nothing is lost on the way unless the token has fired: a pump is
to end only because startup has failed, the channel is closed only when nobody can
write to it any more, and the work queue is closed only when the token has fired.
-/

namespace ResourceWatch.Path

/-- What holds at every moment of a pipeline that runs alone. -/
structure Lone (p : Path) : Prop where
  /-- Every source hands its keys to the work queue. -/
  served : ∀ t, p.role t ≠ .recorder
  /-- A pipeline waits for its startup to fail only when the token has fired. -/
  failing : ∀ t, p.role t = .failing → p.fired = true
  /-- Streams are opened once at most. -/
  single : ∀ t u a b, p.role t = .starter a → p.role u = .starter b → t = u
  /-- Nothing has happened before the pipeline begins. -/
  unbegun : p.unstarted = true →
    (∀ t a, p.role t ≠ .starter a) ∧ p.gate = .pending ∧ p.spare = true
  /-- The gate is not settled before startup ends. -/
  pending : ∀ t a, p.role t = .starter a → p.gate = .pending
  /-- The spare writer is there until the streams are open. -/
  spare : ∀ t, p.role t = .starter false → p.spare = true
  /-- A pump is to end only because startup has failed. -/
  kept : ∀ t q, p.role t = .pump q → q.aborted = true → p.gate = .cancelled ∨ p.fired = true
  /-- The channel is closed only when nobody can write to it any more. -/
  silent : p.channel.closed = true → p.fired = true ∨ p.Silent
  /-- The work queue is closed only when the token has fired. -/
  working : p.queue.closed = true → p.fired = true

/-- A task is what it was, or does not matter any more, or holds a key, or is a
pump on its way. -/
def Follows (r r' : Role) : Prop :=
  r' = r ∨ r' = .bystander ∨ (∃ key result, r' = .holder key result) ∨
    ∃ q q', r = .pump q ∧ r' = .pump q' ∧ (q'.aborted = true → q.aborted = true) ∧
      (q.state = .ended → q'.state = .ended)

variable {p p' : Path} {t : TaskId} {q : Pump}

theorem follows_become {r : Role} (h : Follows (p.role t) r) (u : TaskId) :
    Follows (p.role u) ((p.become t r).role u) := by
  by_cases same : u = t
  · subst same
    simpa using h
  · exact .inl (become_role_of_ne same)

/-- Tasks that follow their old selves change nothing about it. -/
theorem Lone.follow (h : p.Lone) (roles : ∀ t, Follows (p.role t) (p'.role t))
    (gate : p'.gate = p.gate) (fired : p'.fired = p.fired) (spare : p'.spare = p.spare)
    (unstarted : p'.unstarted = p.unstarted) (channel : p'.channel.closed = p.channel.closed)
    (queue : p'.queue.closed = p.queue.closed) : p'.Lone := by
  have starter {t : TaskId} {a : Bool} (s : p'.role t = .starter a) : p.role t = .starter a := by
    obtain r | r | ⟨_, _, r⟩ | ⟨_, _, -, r, -, -⟩ := roles t <;> simp_all
  have failing {t : TaskId} (s : p'.role t = .failing) : p.role t = .failing := by
    obtain r | r | ⟨_, _, r⟩ | ⟨_, _, -, r, -, -⟩ := roles t <;> simp_all
  have pump {t : TaskId} {q' : Pump} (s : p'.role t = .pump q') : ∃ q, p.role t = .pump q ∧
      (q'.aborted = true → q.aborted = true) ∧ (q.state = .ended → q'.state = .ended) := by
    obtain r | r | ⟨_, _, r⟩ | ⟨q, _, was, r, same⟩ := roles t
    · exact ⟨q', r ▸ s, id, id⟩
    · simp_all
    · simp_all
    · obtain rfl := Role.pump.inj (r.symm.trans s)
      exact ⟨q, was, same⟩
  exact
    { served := by
        intro t s
        have was := h.served t
        obtain r | r | ⟨_, _, r⟩ | ⟨_, _, -, r, -, -⟩ := roles t <;> simp_all
      failing := fun t s => by rw [fired]; exact h.failing t (failing s)
      single := fun t u a b s s' => h.single t u a b (starter s) (starter s')
      unbegun := by
        intro new
        obtain ⟨none, pending, there⟩ := h.unbegun (unstarted ▸ new)
        exact ⟨fun t a s => none t a (starter s), gate ▸ pending, spare ▸ there⟩
      pending := fun t a s => by rw [gate]; exact h.pending t a (starter s)
      spare := fun t s => by rw [spare]; exact h.spare t (starter s)
      kept := by
        intro t q' s aborted
        obtain ⟨q, was, ab, -⟩ := pump s
        rw [gate, fired]
        exact h.kept t q was (ab aborted)
      silent := by
        intro closed
        rw [fired]
        refine (h.silent (channel ▸ closed)).imp_right fun silent => ⟨spare ▸ silent.1, ?_⟩
        intro t q' s
        obtain ⟨q, was, -, ended⟩ := pump s
        exact ended (silent.2 t q was)
      working := fun closed => by rw [fired]; exact h.working (queue ▸ closed) }

/-- A pump that goes on, or ends, follows its old self. -/
theorem follows_pump {q' : Pump} (pump : p.role t = .pump q) (aborted : q'.aborted = q.aborted)
    (live : q.state ≠ .ended) (u : TaskId) :
    Follows (p.role u) ((p.become t (.pump q')).role u) :=
  follows_become (.inr (.inr (.inr ⟨q, q', pump, rfl, fun h => aborted ▸ h,
    fun h => absurd h live⟩))) u

/-- What a task is that has become something, and what the others are. -/
theorem become_role_eq_iff {r r' : Role} {u : TaskId} :
    (p.become t r).role u = r' ↔ (u = t ∧ r = r') ∨ (u ≠ t ∧ p.role u = r') := by
  by_cases same : u = t
  · simp [same]
  · simp [same]

/-- Startup and the pipeline go on: nothing happens to pumps and sources, and the
rest is to be seen to. -/
theorem Lone.turn (h : p.Lone)
    (roles : ∀ t, p'.role t = p.role t ∨ (p'.role t ≠ .recorder ∧ ∀ q, p'.role t ≠ .pump q))
    (gate : p.gate = .cancelled → p'.gate = .cancelled) (fired : p'.fired = p.fired)
    (dropped : p'.spare = true → p.spare = true)
    (channel : p'.channel = p.channel) (queue : p'.queue = p.queue)
    (failing : ∀ t, p'.role t = .failing → p'.fired = true)
    (single : ∀ t u a b, p'.role t = .starter a → p'.role u = .starter b → t = u)
    (unbegun : p'.unstarted = true →
      (∀ t a, p'.role t ≠ .starter a) ∧ p'.gate = .pending ∧ p'.spare = true)
    (pending : ∀ t a, p'.role t = .starter a → p'.gate = .pending)
    (spare : ∀ t, p'.role t = .starter false → p'.spare = true) : p'.Lone := by
  have pump {t : TaskId} {q : Pump} (s : p'.role t = .pump q) : p.role t = .pump q := by
    obtain same | ⟨-, other⟩ := roles t
    · exact same ▸ s
    · exact absurd s (other q)
  refine ⟨?_, failing, single, unbegun, pending, spare, ?_, ?_, ?_⟩
  · intro t s
    obtain same | ⟨other, -⟩ := roles t
    · exact h.served t (same ▸ s)
    · exact other s
  · intro t q s aborted
    rw [fired]
    exact (h.kept t q (pump s) aborted).imp_left gate
  · intro closed
    rw [fired]
    refine (h.silent (channel ▸ closed)).imp_right fun silent => ⟨?_, ?_⟩
    · by_contra there
      have still : p.spare = true := dropped (by simpa using there)
      simp [silent.1] at still
    · exact fun t q s => silent.2 t q (pump s)
  · intro closed
    rw [fired]
    exact h.working (queue ▸ closed)

@[simp] theorem grant_closed (c : Channel) : c.grant.1.closed = c.closed := by
  rw [Channel.grant]
  split <;> rfl

@[simp] theorem withdraw_closed (c : Channel) (t : TaskId) :
    (c.withdraw t).1.closed = c.closed := by
  rw [Channel.withdraw]
  split
  · exact grant_closed _
  · rfl

theorem receive?_closed {c c' : Channel} {e : ChangeEvent} {woken : Option TaskId}
    (received : c.receive? = some (e, c', woken)) : c'.closed = c.closed := by
  unfold Channel.receive? at received
  split at received
  · simp at received
  · simp only [Option.some.injEq, Prod.mk.injEq] at received
    rw [← received.2.1]
    exact grant_closed _

theorem Lone.begin (h : p.Lone) (unstarted : p.unstarted = true) :
    Lone ({ p with unstarted := false }.become t (.starter false)) := by
  obtain ⟨none, pending, there⟩ := h.unbegun unstarted
  refine h.turn ?_ (by simp) rfl id rfl rfl ?_ ?_ (by simp) (fun _ _ _ => pending)
    fun _ _ => there
  · intro u
    by_cases same : u = t <;> simp [same]
  · intro u s
    rw [become_role_eq_iff] at s
    obtain ⟨-, s⟩ | ⟨-, s⟩ := s
    · simp at s
    · exact h.failing u s
  · intro u v a b su sv
    rw [become_role_eq_iff] at su sv
    grind

theorem Lone.delegate {u : TaskId} (h : p.Lone) (starter : p.role t = .starter false) :
    Lone ((p.become u (.starter false)).become t .bystander) := by
  have begun : p.unstarted ≠ true := fun new => (h.unbegun new).1 t false starter
  have only (v : TaskId) (a : Bool) (s : p.role v = .starter a) : v = t :=
    h.single v t a false s starter
  have there := h.spare t starter
  have pending := h.pending t false starter
  refine h.turn ?_ id rfl id rfl rfl ?_ ?_ (fun new => absurd new begun)
    (fun _ _ _ => pending) fun _ _ => there
  · intro v
    by_cases same : v = t
    · simp [same]
    · by_cases same' : v = u
      · subst same'
        simp [Function.update_of_ne same]
      · simp [Function.update_of_ne same, same']
  · intro v s
    rw [become_role_eq_iff, become_role_eq_iff] at s
    exact h.failing v (by grind)
  · intro v v' a b sv sv'
    rw [become_role_eq_iff, become_role_eq_iff] at sv sv'
    grind

/-- Startup has opened the streams. -/
theorem Lone.await (h : p.Lone) (starter : p.role t = .starter false) :
    Lone ({ p with spare := false }.become t (.starter true)) := by
  have begun : p.unstarted ≠ true := fun new => (h.unbegun new).1 t false starter
  have pending := h.pending t false starter
  refine h.turn ?_ id rfl (by simp) rfl rfl ?_ ?_ (fun new => absurd new begun)
    (fun _ _ _ => pending) ?_
  · intro u
    by_cases same : u = t <;> simp [same]
  · intro u s
    rw [become_role_eq_iff] at s
    exact h.failing u (by grind)
  · intro u v a b su sv
    rw [become_role_eq_iff] at su sv
    have := h.single
    grind
  · intro u s
    rw [become_role_eq_iff] at s
    have := h.single u t false false
    grind

/-- Startup ends well. -/
theorem Lone.settle {opened : Bool} (h : p.Lone) (starter : p.role t = .starter opened) :
    Lone ({ p with gate := p.gate.settle .synced }.become t .bystander) := by
  have begun : p.unstarted ≠ true := fun new => (h.unbegun new).1 t opened starter
  have pending := h.pending t opened starter
  have none (u : TaskId) (a : Bool) : (p.become t .bystander).role u ≠ .starter a := by
    intro s
    rw [become_role_eq_iff] at s
    have := h.single u t a opened
    grind
  refine h.turn ?_ (by simp [pending]) rfl id rfl rfl ?_ (fun u _ a _ s => absurd s (none u a))
    (fun new => absurd new begun) (fun u a s => absurd s (none u a))
    fun u s => absurd s (none u false)
  · intro u
    by_cases same : u = t <;> simp [same]
  · intro u s
    rw [become_role_eq_iff] at s
    exact h.failing u (by grind)

/-- Startup fails. Pumps are to end only now, when the gate is closed. -/
theorem Lone.founder {opened spare : Bool} {pumps : List TaskId} {schedule : Schedule}
    (h : p.Lone) (starter : p.role t = .starter opened) (dropped : spare = true → p.spare = true) :
    Lone ((({ p with gate := p.gate.settle .cancelled, spare }.abandon pumps).become t
      .bystander).reschedule schedule) := by
  have begun : p.unstarted ≠ true := fun new => (h.unbegun new).1 t opened starter
  have pending := h.pending t opened starter
  have same {u : TaskId} {r : Role} (guide : r ≠ .bystander) (other : ∀ q, r ≠ .pump q)
      (s : ((p.abandon pumps).become t .bystander).role u = r) : u ≠ t ∧ p.role u = r := by
    rw [become_role_eq_iff, abandon_role_eq_iff other] at s
    exact s.resolve_left fun e => guide e.2.symm
  have none (u : TaskId) (a : Bool) :
      ((p.abandon pumps).become t .bystander).role u ≠ .starter a := by
    intro s
    obtain ⟨ne, s⟩ := same (by simp) (by simp) s
    exact ne (h.single u t a opened s starter)
  exact
    { served := fun u s => h.served u (same (by simp) (by simp) s).2
      failing := fun u s => h.failing u (same (by simp) (by simp) s).2
      single := fun u v a b s _ => absurd s (none u a)
      unbegun := fun new => absurd new begun
      pending := fun u a s => absurd s (none u a)
      spare := fun u s => absurd s (none u false)
      kept := fun _ _ _ _ => .inl (by simp [pending, SyncState.settle])
      silent := by
        intro closed
        refine (h.silent closed).imp_right fun silent => ⟨?_, ?_⟩
        · by_contra there
          have still : p.spare = true := dropped (by simpa using there)
          simp [silent.1] at still
        · intro u q s
          rw [reschedule_role, become_role_eq_iff] at s
          obtain ⟨-, s⟩ | ⟨-, s⟩ := s
          · simp at s
          · obtain was | ⟨q, was, live, -⟩ := role_of_abandon s
            · exact silent.2 u q was
            · exact absurd (silent.2 u q was) live
      working := h.working }

/-- A pipeline waits for its startup to fail. -/
theorem Lone.fail (h : p.Lone) (fired : p.fired = true) : (p.become t .failing).Lone := by
  refine h.turn ?_ id rfl id rfl rfl (fun _ _ => fired) ?_ ?_ ?_ ?_
  · intro u
    by_cases same : u = t <;> simp [same]
  · intro u v a b su sv
    rw [become_role_eq_iff] at su sv
    have := h.single u v a b
    grind
  · intro new
    obtain ⟨none, rest⟩ := h.unbegun new
    refine ⟨?_, rest⟩
    intro u a s
    rw [become_role_eq_iff] at s
    have := none u a
    grind
  · intro u a s
    rw [become_role_eq_iff] at s
    exact h.pending u a (by grind)
  · intro u s
    rw [become_role_eq_iff] at s
    exact h.spare u (by grind)

/-- Pumps are to end after the token has fired. -/
theorem Lone.forsake {pumps : List TaskId} {schedule : Schedule} (h : p.Lone)
    (fired : p.fired = true) : ((p.abandon pumps).reschedule schedule).Lone := by
  have same {u : TaskId} {r : Role} (other : ∀ q, r ≠ .pump q)
      (s : (p.abandon pumps).role u = r) : p.role u = r := (abandon_role_eq_iff other).1 s
  exact
    { served := fun u s => h.served u (same (by simp) s)
      failing := fun _ _ => fired
      single := fun u v a b s s' => h.single u v a b (same (by simp) s) (same (by simp) s')
      unbegun := by
        intro new
        obtain ⟨none, rest⟩ := h.unbegun new
        exact ⟨fun u a s => none u a (same (by simp) s), rest⟩
      pending := fun u a s => h.pending u a (same (by simp) s)
      spare := fun u s => h.spare u (same (by simp) s)
      kept := fun _ _ _ _ => .inr fired
      silent := fun _ => .inl fired
      working := fun _ => fired }

/-- A stream is opened while there is somebody beside the pumps who may write. -/
theorem Lone.stream {gvk : Gvk} {f : Feed} {store : Gvk → Option Store} {schedule : Schedule}
    (h : p.Lone) (there : p.spare = true) :
    Lone ((((p.withStore store).feedAt gvk f).become t (.pump { gvk })).reschedule schedule) := by
  have same {u : TaskId} {r : Role} (other : ∀ q, r ≠ .pump q)
      (s : (p.become t (.pump { gvk })).role u = r) : p.role u = r := by
    rw [become_role_eq_iff] at s
    exact (s.resolve_left fun e => other _ e.2.symm).2
  exact
    { served := fun u s => h.served u (same (by simp) s)
      failing := fun u s => h.failing u (same (by simp) s)
      single := fun u v a b s s' => h.single u v a b (same (by simp) s) (same (by simp) s')
      unbegun := by
        intro new
        obtain ⟨none, rest⟩ := h.unbegun new
        exact ⟨fun u a s => none u a (same (by simp) s), rest⟩
      pending := fun u a s => h.pending u a (same (by simp) s)
      spare := fun u s => h.spare u (same (by simp) s)
      kept := by
        intro u q s aborted
        obtain ⟨-, s⟩ | ⟨-, s⟩ := become_role_eq_iff.1 s
        · cases s
          simp at aborted
        · exact h.kept u q s aborted
      silent := by
        intro closed
        refine (h.silent closed).imp_right ?_
        intro silent
        simp [silent.1] at there
      working := h.working }

/-- Every step of a pipeline that runs alone keeps it alone. -/
theorem Lone.step (h : p.Lone) (step : Step True p p') : p'.Lone := by
  cases step with
  | wake | rest | listen | queueUp | refuse =>
      exact h.follow (fun _ => .inl rfl) rfl rfl rfl rfl rfl rfl
  | fire schedule keeps woken =>
      exact
        { h with
          failing := fun _ _ => rfl
          kept := fun _ _ _ _ => .inr rfl
          silent := fun _ => .inl rfl
          working := fun _ => rfl }
  | begin t unstarted new => exact h.begin unstarted
  | delegate t u starter new => exact h.delegate starter
  | await t starter => exact h.await starter
  | «open» t opened starter => exact h.settle starter
  | founder t opened spare pumps schedule starter dropped => exact h.founder starter dropped
  | fail t aside fired => exact h.fail fired
  | retire t failing =>
      exact h.follow (follows_become (.inr (.inl rfl))) rfl rfl rfl rfl rfl rfl
  | forsake pumps schedule free => exact h.forsake (free trivial)
  | stream t gvk store schedule new unfired spare => exact h.stream (spare trivial)
  | report => exact h.follow (fun _ => .inl rfl) rfl rfl rfl rfl rfl rfl
  | pass t q item rest pump ready state =>
      exact h.follow (follows_pump pump rfl (by simp [state])) rfl rfl rfl rfl rfl rfl
  | pick t q item rest e pump ready state =>
      exact h.follow (follows_pump pump rfl (by simp [state])) rfl rfl rfl rfl rfl rfl
  | send t q e pump ready state =>
      exact h.follow (follows_pump pump rfl (by simp [state])) rfl rfl rfl rfl rfl rfl
  | finish t q schedule pump live =>
      exact h.follow (follows_pump pump rfl live) rfl rfl rfl rfl (withdraw_closed _ _) rfl
  | hand e key c woken schedule received =>
      exact h.follow (fun _ => .inl rfl) rfl rfl rfl rfl (receive?_closed received)
        WorkQueue.push_closed
  | skip e c woken schedule received =>
      exact h.follow (fun _ => .inl rfl) rfl rfl rfl rfl (receive?_closed received) rfl
  | stop schedule free => exact { h with silent := fun _ => (free trivial).imp_right (·.2) }
  | push key => exact h.follow (fun _ => .inl rfl) rfl rfl rfl rfl rfl WorkQueue.push_closed
  | conclude t key result time holder =>
      exact h.follow (follows_become (.inr (.inl rfl))) rfl rfl rfl rfl rfl WorkQueue.finish_closed
  | close free => exact { h with working := fun _ => free trivial }
  | record t free => exact absurd trivial free
  | relinquish free => exact absurd trivial free

theorem Lone.take {key : String} (h : p.Lone) (take : Take t key p p') : p'.Lone := by
  obtain ⟨queue, time, result, asking, taken, -⟩ := take
  obtain ⟨rest, -, rfl⟩ := WorkQueue.take?_eq_some.1 taken
  exact h.follow (follows_become (.inr (.inr (.inl ⟨key, result, rfl⟩)))) rfl rfl rfl rfl rfl rfl

theorem Lone.inflow {gvk : Gvk} {f : Feed} (h : p.Lone) (inflow : Inflow gvk f p p') :
    p'.Lone := by
  obtain ⟨schedule, keeps, woken⟩ := inflow
  exact h.follow (fun _ => .inl rfl) rfl rfl rfl rfl rfl rfl

end ResourceWatch.Path

namespace ResourceWatch.Engine

/-- The selectors that share a watch are all that has been recorded. -/
@[simp] theorem ofPlan_record (options : EngineOptions) (plan : WatchPlan) :
    (ofPlan options plan).shop.history.filter Occurrence.isMilestone = [] := by
  simp [ofPlan, Occurrence.isMilestone]

@[simp] theorem ofPlan_role (options : EngineOptions) (plan : WatchPlan) (t : TaskId) :
    (ofPlan options plan).role t = .bystander := rfl

/-- An engine in which nothing has happened runs alone. -/
theorem lone_ofPlan (options : EngineOptions) (plan : WatchPlan) :
    (ofPlan options plan).path.Lone := by
  exact
    { served := by simp
      failing := by simp
      single := by simp
      unbegun := fun _ => ⟨by simp, rfl, rfl⟩
      pending := by simp
      spare := by simp
      kept := by simp
      silent := fun closed => absurd closed Bool.false_ne_true
      working := fun closed => absurd closed Bool.false_ne_true }

end ResourceWatch.Engine
