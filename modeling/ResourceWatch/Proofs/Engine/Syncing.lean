import ResourceWatch.Proofs.Engine.Tasks

/-!
# An open gate says that the first lists are dealt with

The gate opens when startup has found the pump of every planned kind hydrated, and it
stays open. A hydrated pump was through with everything that its stream had yielded
before the mark, and what has entered the channel stays on record. So whenever the gate
is open, whenever somebody was told so, and whenever a reconcile begins, every planned
kind is through with its first list.
-/

namespace ResourceWatch

namespace Path

variable {p p' : Path} {alone : Prop} {key : String} {time : Nat}

/-- Reconciles begin only when a key is handed out. -/
theorem Step.began (step : Step alone p p') (began : .began key time ∈ p'.record) :
    .began key time ∈ p.record := by
  cases step with
  | send | conclude =>
      rw [note_record] at began
      simpa using began
  | _ => exact began

end Path

namespace Engine

open ResourceWatch.Path

variable {options : EngineOptions} {plan : WatchPlan} {past : Past Engine Command}
  {w w' : Engine} {gvk : Gvk}

/-- Every task stands for something that is so, and the gate is open only if every
kind of the plan is hydrated. -/
structure Vouched (plan : WatchPlan) (w : Engine) : Prop where
  planned : w.plan = plan
  hydrated : w.gate = .synced → ∀ watch ∈ plan.watches, w.Hydrated watch.kind.gvk
  tasks : ∀ (t : TaskId) (task : EngineTask), w.tasks[t]? = some task → w.Vouches task

theorem Vouched.brings (h : Vouched plan w) (stays : w.path.Stays w'.path)
    (brings : Brings (∀ watch ∈ w.plan.watches, w.Hydrated watch.kind.gvk)
      (fun task => w.Vouches task ∨ w'.Vouches task) w w') : Vouched plan w' := by
  refine ⟨brings.plan.trans h.planned, fun synced watch member => ?_, fun t task found => ?_⟩
  · obtain before | all := brings.opens synced
    · exact (h.hydrated before watch member).stays stays
    · exact (all watch (h.planned.symm ▸ member)).stays stays
  · have kept (stood : w.Vouches task) : w'.Vouches task :=
      stood.stays stays brings.plan brings.stays
    obtain old | stood | stands := brings.tasks t task found
    · exact kept (h.tasks t task old)
    · exact kept stood
    · exact stands

/-- Whatever happens, pumps stay what they are, and every task was there or stands for
something that is so. -/
theorem brings_after (h : Vouched plan w) {happening : Happening Command}
    (possible : conduct.Possible past w happening) :
    w.path.Stays (conduct.after w happening).path ∧
      Brings (∀ watch ∈ w.plan.watches, w.Hydrated watch.kind.gvk)
        (fun task => w.Vouches task ∨ (conduct.after w happening).Vouches task) w
        (conduct.after w happening) := by
  cases happening with
  | elapse time =>
      have steps : Steps False w.path _ := (w.stirs_elapse time).steps
      exact ⟨.steps steps, (Brings.refl w).alike rfl rfl rfl⟩
  | move t =>
      refine ⟨.advance (advance_run False possible False.elim), ?_⟩
      have acted := w.brings_act t h.tasks
      simp only [Conduct.after, Cooperative.run, Cooperative.act, Cooperative.reschedule,
        Cooperative.schedule]
      split
      all_goals
        rename_i w' went
        rw [went] at acted
      · exact acted
      · exact acted.alike rfl rfl rfl
  | command c =>
      have unobserved : c.observes = false := by simpa [Conduct.Possible, conduct] using possible
      refine ⟨?_, (w.brings_apply c).mono False.elim fun _ => .inl⟩
      show w.path.Stays (w.apply c).1.path
      cases comes : c.inflow? with
      | none => exact .steps (steps_apply False comes unobserved False.elim)
      | some gvk =>
          obtain ⟨-, role, -⟩ := (inflow_apply (w := w) comes).keeps
          exact fun u q pump => ⟨q, (congrFun role u).trans pump, .refl q⟩

/-- At every moment of a run, every task stands for something that is so. -/
theorem vouched_of_run (run : conduct.Run (ofPlan options plan) past w) : Vouched plan w := by
  induction run with
  | start => exact ⟨rfl, by simp [ofPlan], by simp [ofPlan]⟩
  | next run possible ih =>
      obtain ⟨stays, brings⟩ := brings_after ih possible
      exact ih.brings stays brings

/-- A gate that was open at some moment is open from then on. -/
theorem synced_of_split (run : conduct.Run (ofPlan options plan) past w)
    {before later : Past Engine Command} {w₁ : Engine} {happening : Happening Command}
    (split : past = before ++ (w₁, happening) :: later) (synced : w₁.gate = .synced) :
    w.gate = .synced := by
  induction run generalizing later with
  | start => simp at split
  | next run possible ih =>
      have brings := (brings_after (vouched_of_run run) possible).2
      obtain ⟨rfl, same, rfl⟩ | ⟨rest, rfl, rfl⟩ := append_singleton_eq_append_cons.1 split
      · cases same
        exact brings.stays synced
      · exact brings.stays (ih rfl)

/-- Whoever is handed a key found the gate open. -/
theorem synced_of_handed (vouched : Vouched plan w) {t : TaskId} {key : String}
    (handed : w.handed t = some key) : w.gate = .synced := by
  unfold Engine.handed at handed
  split at handed
  · rename_i found
    exact vouched.tasks t _ found
  · cases handed

/-- Every reconcile began when a worker was handed its key. -/
theorem handed_of_began (run : conduct.Run (ofPlan options plan) past w) {key : String}
    {time : Nat} (began : .began key time ∈ w.shop.history) :
    ∃ before w₁ t later, past = before ++ (w₁, Happening.move t) :: later ∧
      w₁.handed t = some key := by
  have recorded : .began key time ∈ w.path.record → ∃ w₁ t, (w₁, .move t) ∈ past ∧
      w₁.handed t = some key := by
    refine (path_of_run False (P := fun past p => .began key time ∈ p.record →
      ∃ w₁ t, (w₁, .move t) ∈ past ∧ w₁.handed t = some key) (fun _ _ => rfl) ?_ ?_
      (fun absurd => absurd.elim) ?_ ?_ ?_ ?_ run).1
    · intro past c allowed
      exact ⟨by simpa [conduct] using allowed, fun absurd => absurd.elim⟩
    · simp [ofPlan]
    · exact fun h _ step began => h (step.began began)
    · intro past w happening h _ _ began
      obtain ⟨w₁, t, member, handed⟩ := h began
      exact ⟨w₁, t, List.mem_append_left _ member, handed⟩
    · intro past w t k p' h handed take began
      obtain ⟨queue, time', result, -, -, -⟩ := take
      rw [note_record] at began
      obtain before | now := List.mem_append.1 began
      · obtain ⟨w₁, t, member, handed⟩ := h before
        exact ⟨w₁, t, List.mem_append_left _ member, handed⟩
      · cases List.mem_singleton.1 now
        exact ⟨w, t, by simp, handed⟩
    · intro past w c gvk h _ comes inflow began
      obtain ⟨w₁, t, member, handed⟩ := h (inflow.keeps.2.2 ▸ began)
      exact ⟨w₁, t, List.mem_append_left _ member, handed⟩
  obtain ⟨w₁, t, member, handed⟩ := recorded (List.mem_filter.2 ⟨began, rfl⟩)
  obtain ⟨before, later, split⟩ := List.append_of_mem member
  exact ⟨before, w₁, t, later, split, handed⟩

/-- The stream of a kind has yielded its mark, and what it yielded before has been dealt
with: every change that it amounts to has entered the channel, in order, and what a pump
of the kind is still to pass on came after the mark. What amounts to no change is dealt
with as soon as it is taken. -/
def CaughtUp (plan : WatchPlan) (gvk : Gvk) (past : Past Engine Command) (w : Engine) : Prop :=
  ∃ before rest, streamItems gvk past =
      before ++ .ok .hydrated :: rest ++
        (w.provider.feed gvk).tracker.items (w.provider.feed gvk).arrivals ∧
    (∀ item ∈ before, StreamItem.isMark item = false) ∧
    before.filterMap (plan.filterTable.event? gvk) <+: w.shop.history.enteredOf gvk ∧
    ∀ (t : TaskId) (q : Pump) (e : ChangeEvent), w.tasks[t]? = some (.pump q) → q.gvk = gvk →
      q.state = .sending e → ∃ item ∈ rest, plan.filterTable.event? gvk item = some e

/-- A hydrated pump was through with everything before the mark. -/
theorem caughtUp_of_hydrated (run : conduct.Run (ofPlan options plan) past w)
    (hydrated : w.Hydrated gvk) : CaughtUp plan gvk past w := by
  obtain ⟨t, q, found, kind, marked⟩ := hydrated
  obtain ⟨taken, flow, marks⟩ := (remembers_of_run run).kinds gvk
  obtain ⟨before, rest, rfl, first, entered⟩ := marks.marked t q (role_eq_pump.2 found) kind marked
  have table : w.path.table = plan.filterTable := (forwards_of_run run).table
  have record : w.path.entered gvk = w.shop.history.enteredOf gvk := History.enteredOf_filter _ _
  refine ⟨before, rest, flow.items, first, table ▸ record ▸ entered, ?_⟩
  intro u q' e pump kind' state
  -- the item whose change is on its way was taken last, and the mark is no change
  have stage := flow.stage u q' (role_eq_pump.2 pump) kind'
  simp only [Stage, state, kind', table] at stage
  obtain ⟨front, item, last, change, -⟩ := stage
  obtain rfl | ⟨init, final, rfl⟩ := List.eq_nil_or_concat rest
  · obtain ⟨-, same⟩ := List.append_inj' last rfl
    cases same
    cases change
  · rw [List.concat_eq_append, ← List.cons_append, ← List.append_assoc] at last
    obtain ⟨-, same⟩ := List.append_inj' last rfl
    cases same
    exact ⟨item, by simp, change⟩

/-- The gate is open only if every kind of the plan has caught up with its first list. So
nobody is told sooner that the first lists are complete, no worker is handed a key, and
no reconcile has begun. -/
theorem caughtUp_of_run (run : conduct.Run (ofPlan options plan) past w)
    (sign : w.gate = .synced ∨ (∃ t : TaskId, w.tasks[t]? = some (.waiter (some (.ok ())))) ∨
      (∃ t key, w.handed t = some key) ∨ ∃ key time, .began key time ∈ w.shop.history) :
    ∀ watch ∈ plan.watches, CaughtUp plan watch.kind.gvk past w := by
  have vouched := vouched_of_run run
  have synced : w.gate = .synced := by
    obtain synced | ⟨t, told⟩ | ⟨t, key, handed⟩ | ⟨key, time, began⟩ := sign
    · exact synced
    · exact vouched.tasks t _ told
    · exact synced_of_handed vouched handed
    · obtain ⟨before, w₁, t, later, split, handed⟩ := handed_of_began run began
      exact synced_of_split run split
        (synced_of_handed (vouched_of_run (run.split split).1) handed)
  exact fun watch member => caughtUp_of_hydrated run (vouched.hydrated synced watch member)

/-- The first list passes through room for one change, an error in between, before the
mark comes. -/
def listedLate : List (Happening Command) :=
  .command .run :: [0, 0, 1, 1, 2, 2, 3].map .move ++
  [.command (.arrive configMap (.item (.ok (.change (.added (namedObject "a" "1")))))),
    .command (.arrive configMap (.item (.error .cancelled))),
    .command (.arrive configMap (.item (.ok (.change (.added (namedObject "b" "1")))))),
    .command (.arrive configMap (.item (.ok .hydrated))), .command .waitSync] ++
  [3, 3, 3, 1, 3, 3, 2, 0, 0, 4, 5].map .move

theorem caughtUp_of_listedLate :
    ∃ past w, conduct.Run (ofPlan slowOptions everyConfigMap) past w ∧ w.gate = .synced ∧
      everyConfigMap.watches.map (·.kind.gvk) = [configMap] ∧
      (streamItems configMap past).length = 4 ∧
      (w.shop.history.enteredOf configMap).map (·.reference.name) = ["a", "b"] ∧
      w.shop.history.reconcileNotes = ["start obj:0:2:v19:ConfigMap7:default1:a"] ∧
      CaughtUp everyConfigMap configMap past w := by
  let w₀ := ofPlan slowOptions everyConfigMap
  have begun : conduct.Run w₀ [] w₀ := .start
  have run := begun.follow listedLate (by decide +kernel)
  obtain ⟨synced, items, names, began⟩ :
      let past := ((conduct.follow [] w₀ listedLate).get (by decide +kernel)).1
      let w := ((conduct.follow [] w₀ listedLate).get (by decide +kernel)).2
      w.gate = .synced ∧ (streamItems configMap past).length = 4 ∧
        (w.shop.history.enteredOf configMap).map (·.reference.name) = ["a", "b"] ∧
        w.shop.history.reconcileNotes = ["start obj:0:2:v19:ConfigMap7:default1:a"] := by
    decide +kernel
  have caughtUp := caughtUp_of_run run (.inl synced) _ (List.mem_singleton.2 rfl)
  exact ⟨_, _, run, synced, rfl, items, names, began, caughtUp⟩

end Engine

end ResourceWatch
