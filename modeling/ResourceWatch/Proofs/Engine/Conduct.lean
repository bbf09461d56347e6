import ResourceWatch.Proofs.Engine.Moves

/-!
# How the engine is dealt with

Anything that can be done to the engine may be done at any time, except that
reports go through a tracker only when the pump takes them. A pipeline that runs
alone is begun, is waited for, may be cancelled, and has streams that deliver, end
or cannot be opened; nobody else touches its channel, its source or its
registration.

What every step of the path preserves holds in every run. `path_of_run` is this
induction, done once; it lets a statement refer to what has happened as well.
-/

namespace ResourceWatch.Engine

open ResourceWatch.Path

/-- Whether a command leaves a pipeline to itself. -/
def Command.leavesAlone : Command → Bool
  | .run | .waitSync | .cancel | .arrive .. | .closeStream _ | .failOn .. | .push _ => true
  | _ => false

/-- The kind for which a command lets something come in, or stops it. -/
def Command.inflow? : Command → Option Gvk
  | .arrive gvk _ | .closeStream gvk => some gvk
  | _ => none

/-- Whether a command drives a tracker past its pump. -/
def Command.observes : Command → Bool
  | .observe .. => true
  | _ => false

/-- Anything may be done at any time, except that no tracker is driven past its
pump. -/
def conduct : Conduct Engine Command where
  apply w c := (w.apply c).1
  allows _ c := !c.observes

/-- A pipeline is left to itself. -/
def aloneConduct : Conduct Engine Command where
  apply w c := (w.apply c).1
  allows _ c := c.leavesAlone

variable {w : Engine} (alone : Prop)

theorem close_feed (p : Provider) (gvk : Gvk) :
    (p.close gvk).feed = Function.update p.feed gvk ((p.close gvk).feed gvk) := by
  rw [Provider.close]
  split
  · simp [Provider.feed_put, Provider.feed_gvk]
  · simp

@[simp] theorem close_arrivals (p : Provider) (gvk : Gvk) :
    ((p.close gvk).feed gvk).arrivals = (p.feed gvk).arrivals := by
  rw [Provider.close]
  split
  · simp [Provider.feed_put, Provider.feed_gvk]
  · rfl

@[simp] theorem close_tracker (p : Provider) (gvk : Gvk) :
    ((p.close gvk).feed gvk).tracker = (p.feed gvk).tracker := by
  rw [Provider.close]
  split
  · simp [Provider.feed_put, Provider.feed_gvk]
  · rfl

@[simp] theorem close_taken (p : Provider) (gvk : Gvk) :
    ((p.close gvk).feed gvk).taken = (p.feed gvk).taken := by
  rw [Provider.close]
  split
  · simp [Provider.feed_put, Provider.feed_gvk]
  · rfl

/-- A feed that takes nothing more stays so. -/
theorem close_live (p : Provider) (gvk : Gvk) (ends : (p.feed gvk).live = false) :
    ((p.close gvk).feed gvk).live = false := by
  rw [Provider.close]
  split
  · simp [Provider.feed_put, Provider.feed_gvk]
  · exact ends

@[simp] theorem close_cached (p : Provider) (gvk : Gvk) : (p.close gvk).cached = p.cached := by
  rw [Provider.close]
  split
  · simp
  · rfl

/-- Whoever waits for something of a kind is made ready when its feed has
changed. -/
theorem inflow_wakePumps {p : Path} {gvk : Gvk} {f : Feed} (same : w.path = p.feedAt gvk f) :
    Inflow gvk f p (w.wakePumps gvk).path := by
  have role (t : TaskId) : w.role t = p.role t := congrArg (Path.role · t) same
  have schedule : w.shop.schedule = p.schedule := congrArg Path.schedule same
  rw [wakePumps, path_wakeAll, same]
  refine .inflow _ (schedule ▸ Schedule.keeps_wakeAll _ _) ?_
  intro t q pump kind listening
  refine Schedule.mem_wakeAll.2 (.inr (mem_tasksWhere.2
    ⟨.pump q, role_eq_pump.1 ((role t).trans pump), ?_⟩))
  simp [kind, listening]

theorem inflow_arrive (w : Engine) (gvk : Gvk) (more : List Arrival) :
    Inflow gvk ((w.provider.feed gvk).arrive more) w.path (w.arrive gvk more).path := by
  refine inflow_wakePumps (w.path_put gvk _ ?_)
  rw [Feed.arrive]
  split <;> exact w.provider.feed_gvk gvk

theorem inflow_closeStream (w : Engine) (gvk : Gvk) :
    Inflow gvk ((w.provider.close gvk).feed gvk) w.path (w.apply (.closeStream gvk)).1.path := by
  refine inflow_wakePumps (w := { w with provider := w.provider.close gvk }) ?_
  simp only [path, feedAt, ← close_feed, close_cached]
  rfl

theorem steps_drop (r : Registration) (free : ¬ alone) : Steps alone w.path (w.drop r).path := by
  obtain ⟨schedule, keeps, woken, marked, -⟩ := w.path_abort r.pumps
  exact .single (Step.to (.forsake r.pumps schedule (fun a => absurd a free) keeps woken)
    marked.symm)

theorem steps_dropKept (free : ¬ alone) : Steps alone w.path w.dropKept.path := by
  rw [dropKept]
  split
  · exact steps_drop alone (w := { w with kept := none }) _ free
  · exact .refl

theorem steps_dropReceiver (free : ¬ alone) : Steps alone w.path w.dropReceiver.path :=
  .single (Step.to (.stop (w.shop.schedule.wakeAll w.channel.waiting)
    (fun a => absurd a free) (Schedule.keeps_wakeAll _ _)
    fun _ h => Schedule.mem_wakeAll.2 (.inr h)) rfl)

theorem steps_receive (free : ¬ alone) : Steps alone w.path w.receive.path := by
  rw [receive]
  split
  · rename_i e c woken received
    exact .single (Step.to (.skip e c woken (w.shop.schedule.wakeAll woken.toList) received
      (fun a => absurd a free) (Schedule.keeps_wakeAll _ _)
      fun _ h => Schedule.mem_wakeAll.2 (.inr (by simpa using h))) rfl)
  · exact .refl

theorem stirs_call {task : EngineTask} (aside : task.role = .bystander) :
    w.path.Stirs (w.call task).path := w.stirs_spawn aside

theorem steps_begin {task : EngineTask} (starts : task.role = .starter false)
    (unstarted : w.idleStartup = true) (idleSource : Bool) :
    Steps alone w.path
      ({ w with idleStartup := false, idleSource := idleSource }.call task).path := by
  have begin : Step alone w.path
      (Path.become { w.path with unstarted := false } w.nextTask (.starter false)) :=
    .begin w.nextTask unstarted (role_of_le (Nat.le_refl _))
  have spawned := path_spawn { w with idleStartup := false, idleSource := idleSource } task
  rw [starts] at spawned
  refine .head begin (.single (Step.to (.wake _ (Schedule.keeps_wakeAll _ [w.nextTask])) ?_))
  exact spawned.symm

theorem steps_register (free : ¬ alone) : Steps alone w.path w.register.1.path := by
  obtain ⟨p, pumps, schedule, steps, -, keeps, woken, marked, -, -⟩ :=
    opens_register alone (w := w) fun a => absurd a free
  rw [marked]
  exact steps.tail (.forsake pumps schedule (fun a => absurd a free) keeps woken)

/-- A source is set to work that only writes down what it takes. -/
theorem steps_records (free : ¬ alone) :
    Steps alone w.path ({ w with idleSource := false }.spawn (.source .fresh true)).path := by
  have spawned := path_spawn { w with idleSource := false } (.source .fresh true)
  have records : Step alone w.path (w.path.become w.nextTask .recorder) :=
    .record w.nextTask free (role_of_le (Nat.le_refl _))
  refine .head records (.single (Step.to
    (.wake _ (Schedule.keeps_wakeAll _ [w.nextTask])) ?_))
  exact spawned.symm

/-- A start of the streams that never began is given up. -/
theorem steps_dropStartup (free : ¬ alone) :
    Steps alone w.path
      (({ w with idleStartup := false }.dropSpare).settleGate .cancelled).path := by
  have relinquish : Step alone w.path { w.path with
      spare := false, gate := w.gate.settle .cancelled, unstarted := false } :=
    .relinquish free _ false (by simp)
  have drops := (stirs_dropSpare { w with idleStartup := false }).map
    (fun p => { p with gate := w.gate.settle .cancelled }) (fun _ _ => rfl) rfl
  have gate : ({ w with idleStartup := false }).dropSpare.gate = w.gate := by
    obtain ⟨_, _, -, same⟩ := stirs_dropSpare { w with idleStartup := false }
    exact congrArg Path.gate same
  have settles := ({ w with idleStartup := false }).dropSpare.stirs_settleGate .cancelled
  rw [gate] at settles
  exact .head relinquish (drops.trans settles).steps

/-- A command that lets nothing come in takes steps. -/
theorem steps_apply {c : Command} (quiet : c.inflow? = none) (unobserved : c.observes = false)
    (left : alone → c.leavesAlone = true) : Steps alone w.path (w.apply c).1.path := by
  have free (h : c.leavesAlone = false) : ¬ alone := fun a => by simp [left a] at h
  cases c with
  | start =>
      simp only [apply]
      split
      · rename_i unstarted
        exact steps_begin alone rfl unstarted w.idleSource
      · exact .refl
  | source =>
      simp only [apply]
      split
      · exact steps_records alone (free rfl)
      · exact .refl
  | run =>
      simp only [apply]
      split
      · rename_i idle
        rw [Bool.and_eq_true] at idle
        exact steps_begin alone rfl idle.1 false
      · exact .refl
  | waitSync => exact (stirs_call rfl).steps
  | register =>
      simp only [apply]
      split
      · have registers := steps_register alone (w := w) (free rfl)
        split
        · rename_i w₁ r registered
          rw [registered] at registers
          exact registers.trans (steps_dropKept alone (free rfl))
        · rename_i w₁ e registered
          rw [registered] at registers
          exact registers
      · exact .refl
  | waitHydrated => exact (stirs_call rfl).steps
  | fireCall call => exact (w.stirs_fireCall call).steps
  | dropCall call => exact (w.stirs_dropHydration call).steps
  | join lone =>
      cases lone with
      | true => exact (stirs_call rfl).steps
      | false =>
          simp only [apply]
          split
          · exact (stirs_call (w := { w with kept := Option.none }) rfl).steps
          · exact .refl
  | dropStartup =>
      simp only [apply]
      split
      · exact steps_dropStartup alone (free rfl)
      · exact .refl
  | dropSource =>
      simp only [apply]
      split
      · exact steps_dropReceiver alone (w := { w with idleSource := false }) (free rfl)
      · exact .refl
  | dropRegistration =>
      simp only [apply]
      split
      · exact steps_dropKept alone (free rfl)
      · exact .refl
  | dropSpare =>
      have relinquish : Step alone w.path { w.path with spare := false } :=
        .relinquish (free rfl) w.gate w.idleStartup id
      exact .head relinquish w.stirs_dropSpare.steps
  | dropReceiver => exact steps_dropReceiver alone (free rfl)
  | receive => exact steps_receive alone (free rfl)
  | drain | pass => exact .refl
  | cancel => exact steps_fire w
  | arrive | closeStream => simp [Command.inflow?] at quiet
  | observe => simp [Command.observes] at unobserved
  | failOn gvk e => exact .refl
  | push key => exact .head (.push key) (stirs_push w key).steps
  | closeQueue =>
      refine .head (.close fun a => absurd a (free rfl)) ?_
      exact (stirs_reschedule (Desk.keeps_close _)).steps

/-- What arrives for a kind is put at the end of its feed. -/
theorem arrive_feed (w : Engine) (gvk : Gvk) (a : Arrival) :
    (w.apply (.arrive gvk a)).1.provider.feed gvk = (w.provider.feed gvk).arrive [a] := by
  have kind : ((w.provider.feed gvk).arrive [a]).gvk = gvk := by
    rw [Feed.arrive]
    split <;> exact w.provider.feed_gvk gvk
  show ((w.provider.put ((w.provider.feed gvk).arrive [a])).feed gvk) = _
  rw [Provider.feed_put, kind, Function.update_self]

theorem inflow_apply {c : Command} {gvk : Gvk} (inflow : c.inflow? = some gvk) :
    Inflow gvk ((w.apply c).1.provider.feed gvk) w.path (w.apply c).1.path := by
  cases c with
  | arrive g arrival =>
      obtain rfl : g = gvk := by simpa [Command.inflow?] using inflow
      rw [arrive_feed]
      exact w.inflow_arrive g [arrival]
  | closeStream g =>
      obtain rfl : g = gvk := by simpa [Command.inflow?] using inflow
      exact w.inflow_closeStream g
  | _ => simp [Command.inflow?] at inflow

/-- What steps preserve holds in every run. A statement may also refer to what has
happened: it must then survive that something more has happened, before the path
takes the steps that this amounts to. -/
theorem path_of_run {c : Conduct Engine Command} {w₀ : Engine}
    {P : Past Engine Command → Path → Prop}
    (applies : ∀ (w : Engine) (x : Command), c.apply w x = (w.apply x).1)
    (allowed : ∀ (past : Past Engine Command) (x : Command), c.allows past x = true →
      x.observes = false ∧ (alone → x.leavesAlone = true))
    (start : P [] w₀.path) (lone : alone → w₀.path.Lone)
    (step : ∀ {past : Past Engine Command} {p p' : Path}, P past p → (alone → p.Lone) →
      Step alone p p' → P past p')
    (quiet : ∀ {past : Past Engine Command} {w : Engine} {h : Happening Command},
      P past w.path → (∀ t, h = .move t → w.handed t = none) →
      (∀ x, h = .command x → x.inflow? = none) → P (past ++ [(w, h)]) w.path)
    (take : ∀ {past : Past Engine Command} {w : Engine} {t : TaskId} {key : String} {p' : Path},
      P past w.path → w.handed t = some key → Take t key w.path p' →
      P (past ++ [(w, Happening.move t)]) p')
    (inflow : ∀ {past : Past Engine Command} {w : Engine} {x : Command} {gvk : Gvk},
      P past w.path → c.allows past x = true → x.inflow? = some gvk →
      Inflow gvk ((w.apply x).1.provider.feed gvk) w.path (w.apply x).1.path →
      P (past ++ [(w, Happening.command x)]) (w.apply x).1.path)
    {past : Past Engine Command} {w : Engine} (run : c.Run w₀ past w) :
    P past w.path ∧ (alone → w.path.Lone) := by
  have steps {past p p'} (h : P past p ∧ (alone → p.Lone)) (steps : Steps alone p p') :
      P past p' ∧ (alone → p'.Lone) := by
    induction steps with
    | refl => exact h
    | tail _ next ih =>
        refine ⟨step ih.1 ih.2 next, fun a => (ih.2 a).step ?_⟩
        rwa [eq_true a] at next
  induction run with
  | start => exact ⟨start, lone⟩
  | @next past w h run possible ih =>
      cases h with
      | elapse time =>
          exact steps ⟨quiet ih.1 (by simp) (by simp), ih.2⟩ (w.stirs_elapse time).steps
      | move t =>
          have advance := advance_run alone possible ih.2
          cases handed : w.handed t with
          | none =>
              rw [handed] at advance
              exact steps ⟨quiet ih.1 (by simpa using handed) (by simp), ih.2⟩ advance
          | some key =>
              rw [handed] at advance
              obtain ⟨p₁, taken, rest⟩ := advance
              exact steps ⟨take ih.1 handed taken, fun a => (ih.2 a).take taken⟩ rest
      | command x =>
          obtain ⟨unobserved, left⟩ := allowed past x possible
          show P _ (c.apply w x).path ∧ (alone → (c.apply w x).path.Lone)
          rw [applies]
          cases comes : x.inflow? with
          | none =>
              exact steps ⟨quiet ih.1 (by simp) (by simpa using comes), ih.2⟩
                (steps_apply alone comes unobserved left)
          | some gvk =>
              have comes_in := inflow_apply (w := w) comes
              exact ⟨inflow ih.1 possible comes comes_in, fun a => (ih.2 a).inflow comes_in⟩

/-- The kind of the objects in the runs that show what is possible. -/
def configMap : Gvk := ⟨"", "v1", "ConfigMap"⟩

def everyConfigMap : WatchPlan where
  watches := [⟨⟨.core "v1" "configmaps", .ofGvk configMap "configmaps", true⟩,
    [⟨"owner", { id := .core "v1" "configmaps" }⟩]⟩]

/-- A state of an object of that kind. -/
def namedObject (name version : String) : Object where
  metadata := { name := some name, ns := some "default", resourceVersion := some version }

end ResourceWatch.Engine
