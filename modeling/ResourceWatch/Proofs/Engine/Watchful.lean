import ResourceWatch.Proofs.Engine.Sharing

/-!
# Nobody is left waiting

Whatever happens to the engine heeds those whom it does not happen to, and whoever goes on
has grounds to stand where it does and rests only if it is blocked. So at every moment of
a run nobody waits in vain: a task that is not ready would get no further if it went on.

This is one induction over runs. What it needs to know about a single happening is of use
by itself: every task becomes only what it can become, the others stay what they are, and
what is settled lasts.
-/

namespace ResourceWatch

/-- What one task at most is there for. -/
inductive Post where
  /-- To receive changes, or to start whoever does. -/
  | source
  /-- To open the streams, or to start whoever does. -/
  | startup
  /-- To be the pipeline. -/
  | pipeline

/-- Who fills a post, where a source, a startup and a pipeline do. -/
def Post.filler (source startup pipeline : TaskId) : Post → TaskId
  | .source => source
  | .startup => startup
  | .pipeline => pipeline

namespace EngineTask

def fills : Post → EngineTask → Bool
  | .source, .source .. | .source, .pipeline .fresh | .startup, .startup _
  | .startup, .pipeline .fresh | .pipeline, .pipeline _ => true
  | _, _ => false

/-- Whether others may wait for a task. -/
def isAwaitable : EngineTask → Bool
  | .pump _ | .source .. | .startup _ | .worker _ => true
  | _ => false

/-- Whether a task stands where one of its sort begins. -/
def begins : EngineTask → Bool
  | .pump _ | .source .fresh _ | .startup .fresh | .waiter none | .hydration (.locking ..)
  | .join .locking | .join (.joining _) | .pipeline .fresh | .worker .asking
  | .delayed _ (.fresh _) => true
  | _ => false

theorem Resembles.fills {task new : EngineTask} {post : Post} (h : task.Resembles new)
    (is : new.fills post = true) : task.fills post = true := by
  cases post <;> cases task <;> cases new <;> simp_all [Resembles, EngineTask.fills]
  all_goals
    rename_i state state'
    cases state' <;> simp_all

/-- Others may wait for a task if they may wait for one of its sort. -/
theorem Resembles.isAwaitable {task new : EngineTask} (h : task.Resembles new)
    (is : task.isAwaitable = true) : new.isAwaitable = true := by
  cases task <;> cases new <;> simp_all [Resembles, EngineTask.isAwaitable]

end EngineTask

namespace Engine

variable {w w' w'' : Engine} {t u : TaskId} {task new : EngineTask} {actor : Option TaskId}
  {born : EngineTask → Prop} {x : Happening Command} {past : Past Engine Command}

/-- Whoever is waited for is of a sort that others may wait for. -/
theorem awaitable_of_awaits (grounded : w.Grounded task) (awaits : task.awaits u = true) :
    ∃ other, w.tasks[u]? = some other ∧ other.isAwaitable = true := by
  have of {like : EngineTask} (is : like.isAwaitable = true) (there : w.Has u like) :
      ∃ other, w.tasks[u]? = some other ∧ other.isAwaitable = true := by
    obtain ⟨other, found, resembles⟩ := there
    exact ⟨other, found, resembles.isAwaitable is⟩
  have pump {pumps : List TaskId} {pending : List (Gvk × TaskId)} (manned : w.Manned pumps pending)
      (member : u ∈ pumps) : ∃ other, w.tasks[u]? = some other ∧ other.isAwaitable = true := by
    obtain ⟨gvk, there⟩ := manned.pumps u member
    exact of rfl there
  have stream {pumps : List TaskId} {pending : List (Gvk × TaskId)}
      (manned : w.Manned pumps pending) (waits : pending.any (·.2 == u) = true) :
      ∃ other, w.tasks[u]? = some other ∧ other.isAwaitable = true := by
    obtain ⟨entry, member, same⟩ := List.any_eq_true.1 waits
    exact of rfl (eq_of_beq same ▸ manned.pending entry member)
  cases task with
  | startup state =>
      cases state with
      | hydrating => exact stream grounded.2.1 awaits
      | fresh | ended => cases awaits
  | hydration call =>
      cases call with
      | hydrating => exact stream grounded awaits
      | locking | ended | dropped => cases awaits
  | join call =>
      cases call with
      | joining pumps => exact pump grounded (by simpa [EngineTask.awaits] using awaits)
      | locking | ended => cases awaits
  | pipeline state =>
      cases state with
      | failing source startup | opening source startup =>
          exact of rfl (eq_of_beq awaits ▸ grounded.2)
      | draining source result => exact of rfl (eq_of_beq awaits ▸ grounded)
      | running source worker r =>
          obtain same | same := Bool.or_eq_true_iff.1 awaits
          · exact of rfl (eq_of_beq same ▸ grounded.1)
          · exact of rfl (eq_of_beq same ▸ grounded.2.1)
      | stopping source worker r result =>
          obtain same | member := Bool.or_eq_true_iff.1 awaits
          · obtain same | same := Bool.or_eq_true_iff.1 same
            · exact of rfl (eq_of_beq same ▸ grounded.1)
            · exact of rfl (eq_of_beq same ▸ grounded.2.1)
          · exact pump grounded.2.2.1 (by simpa using member)
      | fresh | syncing | ended => cases awaits
  | pump | source | waiter | worker | delayed => cases awaits

/-- Whether nobody has begun who fills a post, or was given up. -/
def vacant (w : Engine) : Post → Bool
  | .source | .pipeline => w.idleSource
  | .startup => w.idleStartup

/-- Every post is filled once at most, and not before somebody has begun who fills it. -/
structure Sole (w : Engine) : Prop where
  one : ∀ (post : Post) (t u : TaskId) (task other : EngineTask), w.tasks[t]? = some task →
    w.tasks[u]? = some other → task.fills post = true → other.fills post = true → t = u
  none : ∀ post, w.vacant post = true → ∀ (t : TaskId) (task : EngineTask),
    w.tasks[t]? = some task → task.fills post = false

theorem Lasts.vacant (h : Lasts w w') {post : Post} (idle : w'.vacant post = true) :
    w.vacant post = true := by
  cases post with
  | source | pipeline => exact h.idleSource idle
  | startup => exact h.idleStartup idle

/-- Where nobody who is new fills a post, everybody who does was there. -/
theorem Sole.evolves (h : w.Sole) (evolves : w.Evolves w') (lasts : Lasts w w')
    (new : ∀ (u : TaskId) (task : EngineTask), w.tasks.length ≤ u → w'.tasks[u]? = some task →
      ∀ post, task.fills post = false) : w'.Sole := by
  have was {post : Post} {t : TaskId} {task : EngineTask} (found : w'.tasks[t]? = some task)
      (is : task.fills post = true) :
      ∃ old, w.tasks[t]? = some old ∧ old.fills post = true := by
    by_cases known : t < w.tasks.length
    · have there := List.getElem?_eq_getElem known
      obtain ⟨new, found', becomes⟩ := evolves t _ there
      obtain rfl := Option.some.inj (found.symm.trans found')
      exact ⟨_, there, becomes.resembles.fills is⟩
    · simp [new t task (Nat.le_of_not_lt known) found post] at is
  refine ⟨fun post t u task other found found' is is' => ?_, fun post begun t task found => ?_⟩
  · obtain ⟨old, there, was_one⟩ := was found is
    obtain ⟨old', there', was_other⟩ := was found' is'
    exact h.one post t u old old' there there' was_one was_other
  · by_contra is
    obtain ⟨old, there, was_one⟩ := was found (by simpa using is)
    simp [h.none post (lasts.vacant begun) t old there] at was_one

/-- Nobody waits in vain: every task has grounds to stand where it does, and is ready or
blocked. -/
structure Watchful (w : Engine) : Prop where
  grounded : ∀ (t : TaskId) (task : EngineTask), w.tasks[t]? = some task → w.Grounded task
  kept : ∀ r, w.kept = some r → w.Manned r.pumps r.pending
  sole : w.Sole
  shut : w.shop.queue.closed = true → w.shop.bell.waiting = []
  attentive : ∀ (t : TaskId) (task : EngineTask), w.tasks[t]? = some task →
    t ∈ w.shop.schedule.ready ∨ w.Blocked t task

/-- When nothing can move, whoever is there waits. -/
theorem Watchful.blocked (h : w.Watchful) (idle : Cooperative.Idle w)
    (found : w.tasks[t]? = some task) : w.Blocked t task := by
  have none_ready : w.shop.schedule.ready = [] := idle
  exact (h.attentive t task found).resolve_left (by simp [none_ready])

/-- Nobody waits for a task of a sort that others may not wait for. -/
theorem Watchful.unawaited (h : w.Watchful) (found : w.tasks[t]? = some task)
    (sort : task.isAwaitable = false) (u : TaskId) (other : EngineTask)
    (there : w.tasks[u]? = some other) : other.awaits t = false := by
  by_contra awaits
  obtain ⟨task', found', is⟩ :=
    awaitable_of_awaits (h.grounded u other there) (by simpa using awaits)
  obtain rfl := Option.some.inj (found.symm.trans found')
  simp [is] at sort

theorem attends_act (h : w.Watchful) (ready : t ∈ w.shop.schedule.ready)
    (found : w.tasks[t]? = some task) (bears : ∀ new, task.Bears new → born new) :
    Attends born t w (w.act t) := by
  have grounded := h.grounded t task found
  have unawaited := h.unawaited found
  cases task with
  | pump q =>
      simp only [act, found]
      exact attends_actPump ready q found
  | source state recording =>
      simp only [act, found]
      refine attends_actSource found (fun u r there => ?_) grounded
      exact h.sole.one .source u t _ _ there found rfl rfl
  | startup state =>
      simp only [act, found]
      refine attends_actStartup found grounded ?_
      rintro rfl gvk
      exact bears _ ⟨gvk, rfl⟩
  | waiter answer =>
      cases answer with
      | none =>
          simp only [act, found]
          exact attends_waiter (unawaited rfl) found
      | some answer =>
          simp only [act, found]
          exact .stays found grounded trivial
  | hydration call =>
      simp only [act, found]
      exact attends_actHydration (unawaited rfl) found grounded h.kept
  | join call =>
      simp only [act, found]
      exact attends_actJoin (unawaited rfl) found grounded h.kept
  | pipeline state =>
      simp only [act, found]
      exact attends_actPipeline (unawaited rfl) found h.grounded bears
  | worker state =>
      simp only [act, found]
      exact attends_actWorker found grounded bears
  | delayed key push =>
      simp only [act, found]
      exact attends_delayed (unawaited rfl) found

theorem grounded_of_bears (bears : task.Bears new) : w.Grounded new := by
  cases task with
  | pipeline state =>
      cases state with
      | fresh => obtain rfl | rfl := bears <;> trivial
      | opening =>
          obtain rfl := bears
          trivial
      | _ => cases bears
  | startup state =>
      cases state with
      | fresh =>
          obtain ⟨gvk, rfl⟩ := bears
          trivial
      | hydrating | ended => cases bears
  | worker state =>
      obtain ⟨key, millis, rfl⟩ := bears
      trivial
  | _ => cases bears

section Happenings

/-! ### What happens -/

/-- Which task goes on, or is told something, when something happens. -/
def actor? : Happening Command → Option TaskId
  | .move t | .command (.fireCall t) | .command (.dropCall t) => some t
  | _ => none

/-- What a command brings forth. -/
def Command.Calls (w : Engine) : Command → EngineTask → Prop
  | .start, new => w.idleStartup = true ∧ new = .startup .fresh
  | .source, new => w.idleSource = true ∧ new = .source .fresh true
  | .run, new => w.idleStartup = true ∧ w.idleSource = true ∧ new = .pipeline .fresh
  | .waitSync, new => new = .waiter none
  | .register, new => ∃ gvk, new = .pump { gvk }
  | .waitHydrated limit token, new => new = .hydration (.locking limit token)
  | .join true, new => new = .join .locking
  | .join false, new => ∃ r, w.kept = some r ∧ new = .join (.joining r.pumps)
  | _, _ => False

/-- What something that happens brings forth. -/
def Begets (w : Engine) : Happening Command → EngineTask → Prop
  | .move t, new => ∃ task, w.tasks[t]? = some task ∧ task.Bears new
  | .elapse _, _ => False
  | .command c, new => c.Calls w new

/-- What something that happens does to the engine, whoever is ready afterwards. -/
def effect (w : Engine) : Happening Command → Engine
  | .move t => (w.act t).1
  | .elapse _ => w
  | .command c => (w.apply c).1

theorem run_eq (w : Engine) (t : TaskId) :
    Cooperative.run w t = (w.act t).1 ∨
      (w.act t).2 = .rests ∧ Cooperative.run w t =
        Cooperative.reschedule (w.act t).1 ((Cooperative.schedule (w.act t).1).rest t) := by
  rw [Cooperative.run]
  simp only [Cooperative.act]
  split
  · rename_i acted
    rw [acted]
    exact .inl rfl
  · rename_i acted
    rw [acted]
    exact .inr ⟨rfl, rfl⟩

/-- What follows a happening differs from its effect by the schedule only. -/
theorem after_eq (w : Engine) (x : Happening Command) :
    ∃ s, conduct.after w x = Cooperative.reschedule (w.effect x) s := by
  cases x with
  | move t =>
      obtain same | ⟨-, same⟩ := w.run_eq t
      · exact ⟨(w.act t).1.shop.schedule, same⟩
      · exact ⟨_, same⟩
  | elapse time => exact ⟨_, rfl⟩
  | command c => exact ⟨(w.apply c).1.shop.schedule, rfl⟩

/-- What is brought forth is only about to begin. -/
theorem begins_of_begets (begets : w.Begets x new) : new.begins = true := by
  cases x with
  | move t =>
      obtain ⟨task, -, bears⟩ := begets
      cases task with
      | pipeline state =>
          cases state with
          | fresh => obtain rfl | rfl := bears <;> rfl
          | opening =>
              obtain rfl := bears
              rfl
          | _ => cases bears
      | startup state =>
          cases state with
          | fresh =>
              obtain ⟨gvk, rfl⟩ := bears
              rfl
          | hydrating | ended => cases bears
      | worker state =>
          obtain ⟨key, millis, rfl⟩ := bears
          rfl
      | _ => cases bears
  | elapse time => cases begets
  | command c =>
      cases c with
      | waitSync | waitHydrated =>
          obtain rfl := begets
          rfl
      | start | source =>
          obtain ⟨-, rfl⟩ := begets
          rfl
      | run =>
          obtain ⟨-, -, rfl⟩ := begets
          rfl
      | register =>
          obtain ⟨gvk, rfl⟩ := begets
          rfl
      | join lone =>
          cases lone with
          | true =>
              obtain rfl := begets
              rfl
          | false =>
              obtain ⟨r, -, rfl⟩ := begets
              rfl
      | _ => cases begets

theorem grounded_of_begets (h : w.Watchful) (begets : w.Begets x new) : w.Grounded new := by
  cases x with
  | move t =>
      obtain ⟨task, -, bears⟩ := begets
      exact grounded_of_bears bears
  | elapse time => cases begets
  | command c =>
      cases c with
      | waitSync | waitHydrated =>
          obtain rfl := begets
          trivial
      | start | source =>
          obtain ⟨-, rfl⟩ := begets
          trivial
      | run =>
          obtain ⟨-, -, rfl⟩ := begets
          trivial
      | register =>
          obtain ⟨gvk, rfl⟩ := begets
          trivial
      | join lone =>
          cases lone with
          | true =>
              obtain rfl := begets
              trivial
          | false =>
              obtain ⟨r, registered, rfl⟩ := begets
              exact (h.kept r registered).mono (List.Subset.refl _) (List.nil_subset _)
      | _ => cases begets

/-- The token of a call fires, and the call is made ready. -/
theorem attends_fireCall {call : HydrationCall} (found : w.tasks[t]? = some (.hydration call))
    (grounded : w.Grounded (.hydration call)) :
    Attends born t w (w.fireCall t, .goesOn) ∧ t ∈ (w.fireCall t).shop.schedule.ready := by
  have same : (EngineTask.hydration call.fire).isEnded = (EngineTask.hydration call).isEnded := by
    cases call with
    | locking limit token | hydrating pending limit due token => cases token <;> rfl
    | ended | dropped => rfl
  have becomes : (EngineTask.hydration call).Becomes (.hydration call.fire) := by
    refine ⟨trivial, fun ended => ?_⟩
    cases call with
    | locking | hydrating => cases ended
    | ended | dropped => rfl
  have grounds : w.Grounded (.hydration call.fire) := by
    cases call with
    | locking limit token => cases token <;> trivial
    | hydrating pending limit due token => cases token <;> exact grounded
    | ended | dropped => trivial
  have turned : Heeds (some t) born w (w.setTask t (.hydration call.fire)) :=
    heeds_setTask found id same.trans id id
  have fires := turned.trans (heeds_wakeAll _ [t])
  simp only [fireCall, found]
  exact ⟨.goesOn found fires (setTask_self found _) becomes fun e => grounds.heeds e fires,
    Schedule.mem_wakeAll.2 (.inr (by simp))⟩

/-- A call is given up, and whoever is next may use the registration. -/
theorem attends_dropHydration {call : HydrationCall}
    (found : w.tasks[t]? = some (.hydration call))
    (unawaited : ∀ (u : TaskId) (other : EngineTask), w.tasks[u]? = some other →
      other.awaits t = false) : Attends born t w (w.dropHydration t, .rests) := by
  have gives (runs : (EngineTask.hydration call).isEnded = false) : Attends born t w
      (((w.clearTimers t).release t).setTask t (.hydration .dropped), .rests) := by
    have cleared : Heeds (some t) born w (w.clearTimers t) := heeds_clearTimers w t
    have ends : Heeds (some t) born ((w.clearTimers t).release t)
        (((w.clearTimers t).release t).setTask t (.hydration .dropped)) :=
      heeds_unawaited found rfl unawaited
    have drops := (cleared.trans (heeds_release _ t)).trans ends
    exact .rests found drops (setTask_self (w := (w.clearTimers t).release t) found _)
      (.of trivial runs) (fun _ => trivial) trivial
  simp only [dropHydration, found]
  cases call with
  | locking | hydrating => exact gives rfl
  | ended | dropped => exact .stays found trivial trivial

/-- Only calls are told anything from outside. -/
theorem apply_of_no_call {c : Command} (acting : actor? (.command c) = some t)
    (no_call : ¬ ∃ call, w.tasks[t]? = some (.hydration call)) : (w.apply c).1 = w := by
  cases c with
  | fireCall u =>
      cases acting
      simp only [Engine.apply, fireCall]
      split
      · rename_i call found
        exact absurd ⟨call, found⟩ no_call
      · rfl
  | dropCall u =>
      cases acting
      simp only [Engine.apply, dropHydration]
      split
      · rename_i found
        exact absurd ⟨_, found⟩ no_call
      · rename_i found
        exact absurd ⟨_, found⟩ no_call
      · rfl
  | _ => cases acting

theorem effect_of_missing (acting : actor? x = some t) (missing : w.tasks[t]? = none) :
    w.effect x = w := by
  cases x with
  | move u =>
      cases acting
      simp only [effect, act, missing]
  | elapse time => cases acting
  | command c => exact apply_of_no_call acting (by simp [missing])

section Commands

variable {actor : Option TaskId} {born : EngineTask → Prop}

/-- A post is filled, or given up. -/
theorem heeds_posts {starter source : Bool} (start : starter = true → w.idleStartup = true)
    (receive : source = true → w.idleSource = true) :
    Heeds actor born w { w with idleStartup := starter, idleSource := source } :=
  heeds_calm (.refl _) ⟨rfl, id, fun _ => rfl, id, id, receive, start⟩ rfl rfl rfl rfl
    fun _ _ _ _ _ => id

/-- The provider changes, and the pumps of a kind are made ready. -/
theorem heeds_feed (w : Engine) (p : Provider) (gvk : Gvk) :
    Heeds actor born w ({ w with provider := p }.wakePumps gvk) := by
  have given : Heeds actor born w { w with provider := p } := heeds_alike (.refl _) rfl rfl rfl
  exact given.trans (heeds_wakeAll _ _)

theorem heeds_applyRegister (w : Engine) :
    Heeds none (Command.Calls w .register) w (w.apply .register).1 := by
  have opened : Heeds none (Command.Calls w .register) w w.register.1 :=
    heeds_register (fun gvk => ⟨gvk, rfl⟩) w
  simp only [Engine.apply]
  split
  · split
    all_goals
      rename_i w₁ outcome registered
      rw [registered] at opened
    · exact (opened.trans (heeds_dropKept w₁)).trans (heeds_keep _ _)
    · exact opened
  · exact heeds_refl w

theorem heeds_applyFireCall (h : w.Watchful) (t : TaskId) :
    Heeds (some t) (Command.Calls w (.fireCall t)) w (w.apply (.fireCall t)).1 := by
  by_cases call : ∃ call, w.tasks[t]? = some (.hydration call)
  · obtain ⟨call, found⟩ := call
    exact (attends_fireCall found (h.grounded t _ found)).1.heeds
  · rw [apply_of_no_call rfl call]
    exact heeds_refl w

theorem heeds_applyDropCall (h : w.Watchful) (t : TaskId) :
    Heeds (some t) (Command.Calls w (.dropCall t)) w (w.apply (.dropCall t)).1 := by
  by_cases call : ∃ call, w.tasks[t]? = some (.hydration call)
  · obtain ⟨call, found⟩ := call
    exact (attends_dropHydration found (h.unawaited found rfl)).heeds
  · rw [apply_of_no_call rfl call]
    exact heeds_refl w

theorem heeds_applyJoin (w : Engine) (alone : Bool) :
    Heeds none (Command.Calls w (.join alone)) w (w.apply (.join alone)).1 := by
  cases alone with
  | true => exact heeds_call rfl rfl
  | false =>
      simp only [Engine.apply]
      split
      · rename_i r registered
        exact (heeds_keep w none).trans (heeds_call ⟨r, registered, rfl⟩ rfl)
      · exact heeds_refl w

end Commands

theorem heeds_apply (h : w.Watchful) (c : Command) :
    Heeds (actor? (.command c)) (c.Calls w) w (w.apply c).1 := by
  have starts : Heeds none (c.Calls w) w { w with idleStartup := false } :=
    heeds_posts (by simp) id
  have receives : Heeds none (c.Calls w) w { w with idleSource := false } :=
    heeds_posts id (by simp)
  cases c with
  | start =>
      simp only [Engine.apply]
      split
      · rename_i idle
        exact starts.trans (heeds_call ⟨idle, rfl⟩ rfl)
      · exact heeds_refl w
  | source =>
      simp only [Engine.apply]
      split
      · rename_i idle
        exact receives.trans (heeds_call ⟨idle, rfl⟩ rfl)
      · exact heeds_refl w
  | run =>
      simp only [Engine.apply]
      split
      · rename_i idle
        rw [Bool.and_eq_true] at idle
        exact (heeds_posts (by simp) (by simp)).trans (heeds_call ⟨idle.1, idle.2, rfl⟩ rfl)
      · exact heeds_refl w
  | waitSync | waitHydrated => exact heeds_call rfl rfl
  | register => exact heeds_applyRegister w
  | fireCall t => exact heeds_applyFireCall h t
  | dropCall t => exact heeds_applyDropCall h t
  | join alone => exact heeds_applyJoin w alone
  | dropStartup =>
      simp only [Engine.apply]
      split
      · exact (starts.trans (heeds_dropSpare _)).trans (heeds_settleGate _ .cancelled)
      · exact heeds_refl w
  | dropSource =>
      simp only [Engine.apply]
      split
      · exact receives.trans (heeds_dropReceiver _)
      · exact heeds_refl w
  | dropRegistration =>
      simp only [Engine.apply]
      split
      · exact heeds_dropKept w
      · exact heeds_refl w
  | dropSpare => exact heeds_dropSpare w
  | dropReceiver => exact heeds_dropReceiver w
  | receive => exact heeds_receive w
  | drain | pass => exact heeds_refl w
  | cancel => exact heeds_fire w
  | arrive gvk arrival => exact heeds_feed w _ gvk
  | observe gvk event => exact heeds_feed w _ gvk
  | closeStream gvk => exact heeds_feed w _ gvk
  | failOn gvk e => exact heeds_alike (.refl _) rfl rfl rfl
  | push key => exact heeds_push w key
  | closeQueue => exact heeds_onDesk (Desk.serves_close _)

theorem heeds_effect (h : w.Watchful) (possible : conduct.Possible past w x) :
    Heeds (actor? x) (w.Begets x) w (w.effect x) := by
  cases x with
  | move t =>
      cases found : w.tasks[t]? with
      | none =>
          have same : w.effect (.move t) = w := effect_of_missing rfl found
          exact same.symm ▸ heeds_refl w
      | some task =>
          exact (attends_act h possible found fun new bears => ⟨task, found, bears⟩).heeds
  | elapse time => exact heeds_refl w
  | command c => exact heeds_apply h c

/-- Whom something happens to becomes what it can become, has grounds to stand there, and
is ready or blocked. -/
theorem turn_effect (h : w.Watchful) (possible : conduct.Possible past w x)
    (acting : actor? x = some t) (found : w.tasks[t]? = some task) :
    ∃ new, (w.effect x).tasks[t]? = some new ∧ task.Becomes new ∧ (w.effect x).Grounded new ∧
      (t ∈ (w.effect x).shop.schedule.ready ∨ (w.effect x).Blocked t new) := by
  have heeds := heeds_effect h possible
  cases x with
  | move u =>
      cases acting
      have attends : Attends (w.Begets (.move t)) t w (w.act t) :=
        attends_act h possible found fun new bears => ⟨task, found, bears⟩
      obtain ⟨new, found', becomes, grounded, -⟩ := attends.turn task found
      exact ⟨new, found', becomes, grounded, .inl (heeds.desk.keeps t possible)⟩
  | elapse time => cases acting
  | command c =>
      by_cases call : ∃ call, w.tasks[t]? = some (.hydration call)
      · obtain ⟨call, there⟩ := call
        obtain rfl := Option.some.inj (found.symm.trans there)
        cases c with
        | fireCall u =>
            cases acting
            obtain ⟨attends, woken⟩ : Attends (fun _ => False) t w (w.fireCall t, .goesOn) ∧
                t ∈ (w.fireCall t).shop.schedule.ready :=
              attends_fireCall found (h.grounded t _ found)
            obtain ⟨new, found', becomes, grounded, -⟩ := attends.turn _ found
            exact ⟨new, found', becomes, grounded, .inl woken⟩
        | dropCall u =>
            cases acting
            have attends : Attends (fun _ => False) t w (w.dropHydration t, .rests) :=
              attends_dropHydration found (h.unawaited found rfl)
            obtain ⟨new, found', becomes, grounded, blocked⟩ := attends.turn _ found
            exact ⟨new, found', becomes, grounded, .inr (blocked rfl)⟩
        | _ => cases acting
      · have same : w.effect (.command c) = w := apply_of_no_call acting call
        rw [same]
        exact ⟨task, found, .refl task, h.grounded t task found, h.attentive t task found⟩

/-- A task that is new is ready, and was brought forth by what happens; a pump may have been
told to end since. -/
theorem new_effect (h : w.Watchful) (possible : conduct.Possible past w x)
    (late : w.tasks.length ≤ u) (found : (w.effect x).tasks[u]? = some task) :
    u ∈ (w.effect x).shop.schedule.ready ∧
      (w.Begets x task ∨ ∃ q q', task = .pump q ∧ w.Begets x (.pump q')) := by
  by_cases acting : actor? x = some u
  · rw [effect_of_missing acting (List.getElem?_eq_none late)] at found
    exact absurd (List.getElem?_eq_some_iff.1 found).1 (Nat.not_lt.2 late)
  · exact (heeds_effect h possible).new u task late acting found

theorem evolves_effect (h : w.Watchful) (possible : conduct.Possible past w x) :
    w.Evolves (w.effect x) := by
  refine (heeds_effect h possible).evolves fun u task acting found => ?_
  obtain ⟨new, found', becomes, -⟩ := turn_effect h possible acting found
  exact ⟨new, found', becomes⟩

theorem kept_of_seizes {r : Registration} (seizes : w.seizes t = some r) : w.kept = some r := by
  unfold Engine.seizes at seizes
  split at seizes
  · split at seizes
    · exact seizes
    · cases seizes
  · cases seizes

/-- The registration that is kept was kept before, or its streams have been taken or handed
over just now, or have just been opened. -/
theorem kept_effect {r : Registration} (keeps : (w.effect x).kept = some r) :
    w.kept = some r ∨
      (∃ t r', x = .move t ∧ w.seizes t = some r' ∧ r = { r' with pending := [] }) ∨
      (∃ t pending due, x = .move t ∧ w.tasks[t]? = some (.startup (.hydrating r pending due)) ∧
        w.hydrate pending = .ok []) ∨
      x = .command .register ∧ ∃ w₁, w.register = (w₁, .ok r) ∧
        w.effect x = { w₁.dropKept with kept := some r } := by
  have still (same : (w.effect x).kept = w.kept) : w.kept = some r := same.symm.trans keeps
  cases x with
  | move t =>
      obtain same | gone | ⟨r', seized, same⟩ | ⟨r', pending, due, there, hydrated, same⟩ :=
        w.act_kept t
      · exact .inl (still same)
      · cases gone.symm.trans keeps
      · exact .inr (.inl ⟨t, r', rfl, seized, Option.some.inj (keeps.symm.trans same)⟩)
      · obtain rfl := Option.some.inj (keeps.symm.trans same)
        exact .inr (.inr (.inl ⟨t, pending, due, rfl, there, hydrated⟩))
  | elapse time => exact .inl keeps
  | command c =>
      cases c with
      | start | source | run =>
          refine .inl (still ?_)
          simp only [effect, Engine.apply]
          split <;> rfl
      | fireCall t =>
          refine .inl (still ?_)
          simp only [effect, Engine.apply, fireCall]
          split <;> rfl
      | dropCall t =>
          refine .inl (still ?_)
          simp only [effect, Engine.apply, dropHydration]
          split <;> rfl
      | register =>
          have terms := w.register_terms
          simp only [effect, Engine.apply] at keeps
          split at keeps
          · rename_i spare
            split at keeps
            all_goals
              rename_i w₁ outcome registered
              rw [registered] at terms
            · cases keeps
              refine .inr (.inr (.inr ⟨rfl, w₁, registered, ?_⟩))
              simp only [effect, Engine.apply, spare, registered, if_true]
            · exact .inl ((congrArg Terms.kept terms).symm.trans keeps)
          · exact .inl keeps
      | join lone =>
          cases lone with
          | true => exact .inl keeps
          | false =>
              simp only [effect, Engine.apply] at keeps
              split at keeps
              · cases keeps
              · exact .inl keeps
      | dropStartup =>
          have silent := noticeSilence_terms { w with idleStartup := false, spare := false }
          refine .inl (still ?_)
          simp only [effect, Engine.apply]
          split
          · exact congrArg Terms.kept silent
          · rfl
      | dropSource =>
          refine .inl (still ?_)
          simp only [effect, Engine.apply]
          split <;> rfl
      | dropRegistration =>
          simp only [effect, Engine.apply] at keeps
          split at keeps
          · cases (dropKept_kept w).symm.trans keeps
          · exact .inl keeps
      | dropSpare => exact .inl (still (congrArg Terms.kept (noticeSilence_terms _)))
      | receive => exact .inl (still (receive_kept w))
      | cancel => exact .inl (still (congrArg Terms.kept w.fire_terms))
      | waitSync | waitHydrated | dropReceiver | drain | pass | arrive | observe | closeStream
      | failOn | push | closeQueue => exact .inl keeps

end Happenings

section Run

/-- A pipeline that begins starts the only source and the only startup. -/
theorem sole_of_begin (h : w.Sole) (found : w.tasks[t]? = some (.pipeline .fresh)) :
    (w.act t).1.Sole := by
  have known := (List.getElem?_eq_some_iff.1 found).1
  have tasks : (w.act t).1.tasks = (w.tasks ++ [EngineTask.source .fresh false] ++
      [EngineTask.startup .fresh]).set t (.pipeline (.syncing w.nextTask (w.nextTask + 1))) := by
    simp only [act, found]
    rfl
  have vacant (post : Post) : (w.act t).1.vacant post = w.vacant post := by
    simp only [act, found]
    cases post <;> rfl
  have first (post : Post) : (EngineTask.pipeline .fresh).fills post = true := by
    cases post <;> rfl
  -- the pipeline fills one post alone from now on, and what it starts fills the others
  have only (post : Post) (u : TaskId) (task : EngineTask)
      (there : (w.act t).1.tasks[u]? = some task) (is : task.fills post = true) :
      u = post.filler w.tasks.length (w.tasks.length + 1) t := by
    rw [tasks] at there
    by_cases here : t = u
    · subst here
      rw [List.getElem?_set_self (by simp; omega)] at there
      cases there
      cases post with
      | source | startup => cases is
      | pipeline => rfl
    · rw [List.getElem?_set_ne here, List.append_assoc] at there
      obtain old | new := Nat.lt_or_ge u w.tasks.length
      · rw [List.getElem?_append_left old] at there
        exact absurd (h.one post t u _ task found there (first post) is) here
      · obtain ⟨n, rfl⟩ := Nat.exists_eq_add_of_le new
        rw [List.getElem?_append_right (Nat.le_add_right _ _), Nat.add_sub_cancel_left] at there
        rcases n with _ | _ | n
        · cases there
          cases post with
          | source => rfl
          | startup | pipeline => cases is
        · cases there
          cases post with
          | startup => rfl
          | source | pipeline => cases is
        · cases there
  refine ⟨fun post u v task other there there' is is' => ?_, fun post begun => ?_⟩
  · exact (only post u task there is).trans (only post v other there' is').symm
  · cases (first post).symm.trans (h.none post ((vacant post).symm.trans begun) t _ found)

/-- Whoever begins fills only posts that nobody fills. -/
theorem sole_of_call (h : w.Sole) (tasks : w'.tasks = w.tasks ++ [task])
    (vacant : ∀ post, task.fills post = true → w.vacant post = true)
    (taken : ∀ post, w'.vacant post = true → w.vacant post = true ∧ task.fills post = false) :
    w'.Sole := by
  have was {post : Post} {u : TaskId} {other : EngineTask} (there : w'.tasks[u]? = some other)
      (is : other.fills post = true) : w.tasks[u]? = some other ∧ task.fills post = false ∨
      u = w.tasks.length ∧ task.fills post = true := by
    rw [tasks] at there
    obtain old | new := Nat.lt_or_ge u w.tasks.length
    · rw [List.getElem?_append_left old] at there
      refine .inl ⟨there, ?_⟩
      by_contra fills
      have free := vacant post (by simpa using fills)
      simp [h.none post free u other there] at is
    · have known := (List.getElem?_eq_some_iff.1 there).1
      rw [List.length_append, List.length_singleton] at known
      obtain rfl : u = w.tasks.length := Nat.le_antisymm (Nat.le_of_lt_succ known) new
      rw [List.getElem?_concat_length] at there
      exact .inr ⟨rfl, Option.some.inj there ▸ is⟩
  refine ⟨fun post u v other other' there there' is is' => ?_, fun post idle u other there => ?_⟩
  · obtain ⟨old, aside⟩ | ⟨last, fills⟩ := was there is
    · obtain ⟨old', -⟩ | ⟨-, fills⟩ := was there' is'
      · exact h.one post u v other other' old old' is is'
      · simp [aside] at fills
    · obtain ⟨-, aside⟩ | ⟨last', -⟩ := was there' is'
      · simp [aside] at fills
      · exact last.trans last'.symm
  · obtain ⟨free, aside⟩ := taken post idle
    by_contra is
    obtain ⟨old, -⟩ | ⟨-, fills⟩ := was there (by simpa using is)
    · simp [h.none post free u other old] at is
    · simp [aside] at fills

/-- Who fills a post that is new was brought forth by whoever begins. -/
theorem eq_of_begets (begets : w.Begets x new) {post : Post} (is : new.fills post = true) :
    (∃ t, x = .move t ∧ w.tasks[t]? = some (.pipeline .fresh)) ∨
      x = .command .start ∧ w.idleStartup = true ∨ x = .command .source ∧ w.idleSource = true ∨
      x = .command .run ∧ w.idleStartup = true ∧ w.idleSource = true := by
  cases x with
  | move t =>
      obtain ⟨task, found, bears⟩ := begets
      cases task with
      | pipeline state =>
          cases state with
          | fresh => exact .inl ⟨t, rfl, found⟩
          | opening =>
              obtain rfl := bears
              cases post <;> cases is
          | _ => cases bears
      | startup state =>
          cases state with
          | fresh =>
              obtain ⟨gvk, rfl⟩ := bears
              cases post <;> cases is
          | hydrating | ended => cases bears
      | worker state =>
          obtain ⟨key, millis, rfl⟩ := bears
          cases post <;> cases is
      | _ => cases bears
  | elapse time => cases begets
  | command c =>
      cases c with
      | start => exact .inr (.inl ⟨rfl, begets.1⟩)
      | source => exact .inr (.inr (.inl ⟨rfl, begets.1⟩))
      | run => exact .inr (.inr (.inr ⟨rfl, begets.1, begets.2.1⟩))
      | waitSync | waitHydrated =>
          obtain rfl := begets
          cases post <;> cases is
      | register =>
          obtain ⟨gvk, rfl⟩ := begets
          cases post <;> cases is
      | join lone =>
          cases lone with
          | true =>
              obtain rfl := begets
              cases post <;> cases is
          | false =>
              obtain ⟨r, -, rfl⟩ := begets
              cases post <;> cases is
      | _ => cases begets

/-- Whatever happens, every post is filled once at most. -/
theorem sole_effect (h : w.Watchful) (possible : conduct.Possible past w x) :
    (w.effect x).Sole := by
  by_cases fresh : ∃ t, x = .move t ∧ w.tasks[t]? = some (.pipeline .fresh)
  · obtain ⟨t, rfl, found⟩ := fresh
    exact sole_of_begin h.sole found
  · by_cases begun : x = .command .start ∧ w.idleStartup = true ∨
        x = .command .source ∧ w.idleSource = true ∨
        x = .command .run ∧ w.idleStartup = true ∧ w.idleSource = true
    · obtain ⟨rfl, idle⟩ | ⟨rfl, idle⟩ | ⟨rfl, idle, idle'⟩ := begun
      · have called : w.effect (.command .start) =
            { w with idleStartup := false }.call (.startup .fresh) := by
          simp only [effect, Engine.apply, idle, if_true]
        rw [called]
        refine sole_of_call h.sole rfl (fun post fills => ?_) fun post free => ?_
        · cases post <;> first | exact idle | cases fills
        · cases post <;> first | exact ⟨free, rfl⟩ | cases free
      · have called : w.effect (.command .source) =
            { w with idleSource := false }.call (.source .fresh true) := by
          simp only [effect, Engine.apply, idle, if_true]
        rw [called]
        refine sole_of_call h.sole rfl (fun post fills => ?_) fun post free => ?_
        · cases post <;> first | exact idle | cases fills
        · cases post <;> first | exact ⟨free, rfl⟩ | cases free
      · have called : w.effect (.command .run) =
            { w with idleStartup := false, idleSource := false }.call (.pipeline .fresh) := by
          simp only [effect, Engine.apply, idle, idle', Bool.and_true, if_true]
        rw [called]
        refine sole_of_call h.sole rfl (fun post _ => ?_) fun post free => ?_
        · cases post <;> first | exact idle | exact idle'
        · cases post <;> cases free
    · refine h.sole.evolves (evolves_effect h possible) (heeds_effect h possible).lasts
        fun u task late found post => ?_
      obtain ⟨-, begets | ⟨q, -, rfl, -⟩⟩ := new_effect h possible late found
      · by_contra is
        exact (eq_of_begets begets (by simpa using is)).elim fresh begun
      · cases post <;> rfl

/-- Whatever happens, nobody waits in vain. -/
theorem Watchful.effect (h : w.Watchful) (possible : conduct.Possible past w x) :
    (w.effect x).Watchful := by
  have heeds := heeds_effect h possible
  have evolves := evolves_effect h possible
  refine ⟨?_, fun r keeps => ?_, sole_effect h possible, heeds.desk.shut h.shut, ?_⟩
  · intro t task found
    by_cases known : t < w.tasks.length
    · have there := List.getElem?_eq_getElem known
      by_cases acting : actor? x = some t
      · obtain ⟨new, found', -, grounded, -⟩ := turn_effect h possible acting there
        exact Option.some.inj (found'.symm.trans found) ▸ grounded
      · obtain ⟨q, -, -, -, told⟩ | ⟨same, -⟩ := heeds.others t acting _ there
        · exact Option.some.inj (told.symm.trans found) ▸ trivial
        · obtain rfl := Option.some.inj (same.symm.trans found)
          exact (h.grounded t _ there).heeds evolves heeds
    · obtain ⟨-, begets | ⟨q, -, rfl, -⟩⟩ := new_effect h possible (Nat.le_of_not_lt known) found
      · exact (grounded_of_begets h begets).heeds evolves heeds
      · trivial
  · obtain before | ⟨t, r', rfl, seized, rfl⟩ | ⟨t, pending, due, rfl, there, -⟩ |
      ⟨rfl, w₁, registered, same⟩ := kept_effect keeps
    · exact (h.kept r before).evolves evolves
    · exact ((h.kept r' (kept_of_seizes seized)).evolves evolves).mono (List.Subset.refl _)
        (List.nil_subset _)
    · obtain ⟨none, manned, -⟩ := h.grounded t _ there
      exact (manned.evolves evolves).mono (List.Subset.refl _) (none ▸ List.nil_subset _)
    · have drops : Heeds none (fun _ => False) w₁ w₁.dropKept := heeds_dropKept w₁
      have keeps : Heeds none (fun _ => False) w₁.dropKept { w₁.dropKept with kept := some r } :=
        heeds_calm (.refl _) (.of_terms rfl id) rfl rfl rfl rfl fun _ _ _ _ _ => id
      rw [same]
      exact (manned_register registered).evolves ((drops.trans keeps).evolves (by simp))
  · intro t task found
    by_cases known : t < w.tasks.length
    · have there := List.getElem?_eq_getElem known
      by_cases acting : actor? x = some t
      · obtain ⟨new, found', -, -, attentive⟩ := turn_effect h possible acting there
        exact Option.some.inj (found'.symm.trans found) ▸ attentive
      · obtain ⟨q, -, -, ready, -⟩ | ⟨same, keeps⟩ := heeds.others t acting _ there
        · exact .inl ready
        · obtain rfl := Option.some.inj (same.symm.trans found)
          obtain ready | keeps := keeps
          · exact .inl ready
          · exact (h.attentive t _ there).imp (heeds.desk.keeps t) keeps
    · exact .inl (new_effect h possible (Nat.le_of_not_lt known) found).1

/-- Under another schedule nobody waits in vain either, if everybody is ready in it or
blocked. -/
theorem Watchful.reschedule {s : Schedule} (h : w.Watchful)
    (attentive : ∀ (u : TaskId) (task : EngineTask), w.tasks[u]? = some task →
      u ∈ s.ready ∨ w.Blocked u task) : Watchful (Cooperative.reschedule w s) := by
  have still : w.Evolves (Cooperative.reschedule w s) :=
    fun _ task found => ⟨task, found, .refl task⟩
  refine ⟨fun u task found => ?_, fun r keeps => (h.kept r keeps).evolves still,
    ⟨h.sole.one, h.sole.none⟩, h.shut, fun u task found => ?_⟩
  · exact (h.grounded u task found).evolves still (.of_terms rfl id) id
  · refine (attentive u task found).imp_right fun blocked => ?_
    exact blocked.keep (fun _ => rfl) (fun _ => rfl) (fun _ _ => .of_eq rfl) (fun _ _ => id) id id

/-- Whatever happens, nobody waits in vain afterwards. -/
theorem Watchful.after (h : w.Watchful) (possible : conduct.Possible past w x) :
    (conduct.after w x).Watchful := by
  have effect := h.effect possible
  cases x with
  | move t =>
      obtain same | ⟨rests, same⟩ := w.run_eq t
      · show (Cooperative.run w t).Watchful
        rw [same]
        exact effect
      · show (Cooperative.run w t).Watchful
        rw [same]
        refine effect.reschedule fun u new found => ?_
        by_cases here : u ≠ t
        · exact (effect.attentive u new found).imp_left (Schedule.mem_rest_of_ne · here)
        obtain rfl := Decidable.of_not_not here
        right
        cases there : w.tasks[u]? with
        | none =>
            have same : w.effect (.move u) = w := effect_of_missing rfl there
            rw [same, there] at found
            cases found
        | some task =>
            have attends : Attends task.Bears u w (w.act u) :=
              attends_act h possible there fun _ => id
            obtain ⟨new', found', -, -, blocked⟩ := attends.turn task there
            exact Option.some.inj (found'.symm.trans found) ▸ blocked rests
  | elapse time =>
      exact h.reschedule fun u task found =>
        (h.attentive u task found).imp_left (Schedule.keeps_elapse _ _ u)
  | command c => exact effect

/-- At every moment of a run, nobody waits in vain. -/
theorem watchful_of_run {options : EngineOptions} {plan : WatchPlan}
    (run : conduct.Run (ofPlan options plan) past w) : w.Watchful := by
  induction run with
  | start =>
      have none (t : TaskId) : (ofPlan options plan).tasks[t]? = none := rfl
      refine ⟨?_, by simp [ofPlan], ⟨?_, ?_⟩, fun _ => rfl, ?_⟩
      all_goals
        intros
        simp_all
  | next run possible ih => exact ih.after possible

/-- What passes on when something happens: every task becomes only what it can become, and
nobody but a pump becomes another one to whom nothing happens; a new task was brought forth,
and may have been told to end if it is a pump; what is settled lasts; whoever uses the
registration still does; and time does not go back. -/
structure Passes (x : Happening Command) (w w' : Engine) : Prop where
  evolves : w.Evolves w'
  lasts : Lasts w w'
  same : ∀ (u : TaskId) (task : EngineTask), actor? x ≠ some u → (∀ q, task ≠ .pump q) →
    w.tasks[u]? = some task → w'.tasks[u]? = some task
  new : ∀ (u : TaskId) (task : EngineTask), w.tasks[u]? = none → w'.tasks[u]? = some task →
    w.Begets x task ∨ ∃ q q', task = .pump q ∧ w.Begets x (.pump q')
  holds : ∀ u : TaskId, actor? x ≠ some u → w.lock.head? = some u → w'.lock.head? = some u
  now : w.now ≤ w'.now

/-- Time passes only when it is let pass, and never goes back. -/
theorem now_after (h : w.Watchful) (possible : conduct.Possible past w x) :
    w.now ≤ (conduct.after w x).now := by
  have still : (w.effect x).now = w.now := (heeds_effect h possible).desk.schedule.now
  cases x with
  | move t =>
      obtain same | ⟨-, same⟩ := w.run_eq t
      · exact Nat.le_of_eq (still.symm.trans (congrArg now same).symm)
      · exact Nat.le_of_eq (still.symm.trans (congrArg now same).symm)
  | elapse time => exact Nat.le_trans possible (Nat.le_of_eq (Schedule.elapse_now _ time).symm)
  | command c => exact Nat.le_of_eq still.symm

theorem passes_after (h : w.Watchful) (possible : conduct.Possible past w x) :
    Passes x w (conduct.after w x) := by
  obtain ⟨s, same⟩ := w.after_eq x
  have heeds := heeds_effect h possible
  have still : Lasts (w.effect x) (Cooperative.reschedule (w.effect x) s) := .of_terms rfl id
  rw [same]
  refine ⟨evolves_effect h possible, heeds.lasts.trans still, fun u task others no_pump found => ?_,
    fun u task missing found => ?_, heeds.holds, same ▸ now_after h possible⟩
  · exact heeds.found others found no_pump
  · exact (new_effect h possible (List.getElem?_eq_none_iff.1 missing) found).2

/-- A task that does not go on stays what it is, unless it is a pump or a call. -/
theorem stays_after (h : w.Watchful) (possible : conduct.Possible past w x)
    (found : w.tasks[t]? = some task) (no_pump : ∀ q, task ≠ .pump q)
    (no_call : ∀ call, task ≠ .hydration call) :
    x = .move t ∨ (conduct.after w x).tasks[t]? = some task := by
  by_cases acting : actor? x = some t
  · cases x with
    | move u =>
        cases acting
        exact .inl rfl
    | elapse time => cases acting
    | command c =>
        have still : (w.apply c).1 = w := apply_of_no_call acting (by simp [found, no_call])
        exact .inr ((congrArg (·.tasks[t]?) still).trans found)
  · exact .inr ((passes_after h possible).same t _ acting no_pump found)

/-- A task was one that could become it, or is only about to begin. -/
theorem Passes.was (h : Passes x w w') (found : w'.tasks[t]? = some new) :
    (∃ task, w.tasks[t]? = some task ∧ task.Becomes new) ∨ new.begins = true := by
  cases there : w.tasks[t]? with
  | none =>
      obtain begets | ⟨q, -, rfl, -⟩ := h.new t new there found
      · exact .inr (begins_of_begets begets)
      · exact .inr rfl
  | some task =>
      obtain ⟨new', found', becomes⟩ := h.evolves t task there
      exact .inl ⟨task, rfl, Option.some.inj (found'.symm.trans found) ▸ becomes⟩

end Run

end Engine

end ResourceWatch
