import ResourceWatch.Proofs.Engine.Watching

/-!
# What the gate tells is what startup has come to

Only startup settles the gate, and it does so exactly when it ends; a startup that is given
up before it begins closes the gate too. There is one startup at most. So whoever sees the
gate open knows that startup has ended well, whoever sees it closed over a startup knows that
this has failed, and while startup is on its way nothing is told.

A startup fails with a cancellation if the token has fired by then, and else only if the
provider gives that as its reason for refusing a stream.
-/

namespace ResourceWatch

/-- What the gate is to tell while a task is the startup, or is to begin it. -/
def EngineTask.verdict : EngineTask → SyncState
  | .startup state => state.verdict
  | _ => .pending

theorem EngineTask.verdict_of_begins {task : EngineTask} (begins : task.begins = true) :
    task.verdict = .pending := by
  cases task with
  | startup state => cases state <;> first | rfl | cases begins
  | _ => rfl

namespace Engine

variable {options : EngineOptions} {plan : WatchPlan} {w w' : Engine} {t u : TaskId}
  {task : EngineTask} {x : Happening Command} {past : Past Engine Command}
  {watches : List PlannedWatch} {r : Registration} {e : WatchError}

section Causes

/-! ### Why startup fails -/

/-- Some stream cannot be opened, for a reason that the provider gives. -/
def Refuses (w : Engine) (e : WatchError) : Prop := ∃ gvk, (gvk, e) ∈ w.provider.failing

theorem error_of_open? {p p' : Provider} {cache : Cache} {gvk : Gvk}
    (refused : p.open? cache gvk = (p', .error e)) :
    (gvk, e) ∈ p.failing ∨ ∃ fault, e = .streamRegistration gvk fault := by
  rw [Provider.open?] at refused
  dsimp only at refused
  split at refused
  · rename_i given
    cases refused
    obtain ⟨before, later, split, -⟩ := List.lookup_eq_some_iff.1 given
    exact .inl (by simp [split])
  · right
    split at refused
    · rename_i attached
      cases refused
      split at attached
      · rw [Cache.attach] at attached
        split at attached <;> cases attached
        exact ⟨_, rfl⟩
      · cases attached
    · split at refused <;> cases refused
      exact ⟨_, rfl⟩

/-- Opening streams fails with a cancellation if the token has fired, and else only if the
provider gives one as its reason. -/
theorem cancelled_of_openStreams (opened : w.openStreams r watches = (w', .error e)) :
    (w.fired = true → e = .cancelled) ∧
      (e = .cancelled → w.fired = true ∨ w.Refuses .cancelled) := by
  induction watches generalizing w r with
  | nil => cases opened
  | cons watch rest ih =>
      rw [openStreams] at opened
      split at opened
      · rename_i fired
        cases opened
        exact ⟨fun _ => rfl, fun _ => .inl fired⟩
      · rename_i unfired
        refine ⟨fun fired => absurd fired unfired, ?_⟩
        dsimp only at opened
        split at opened
        · rename_i refused
          cases opened
          rintro rfl
          obtain given | ⟨fault, same⟩ := error_of_open? refused
          · exact .inr ⟨_, given⟩
          · cases same
        · rename_i asked
          intro cancelled
          obtain ⟨-, later⟩ := ih opened
          refine (later cancelled).imp_right ?_
          rintro ⟨gvk, given⟩
          exact ⟨gvk, Provider.failing_of_open? asked ▸ given⟩

theorem cancelled_of_register (registered : w.register = (w', .error e)) :
    (w.fired = true → e = .cancelled) ∧
      (e = .cancelled → w.fired = true ∨ w.Refuses .cancelled) := by
  rw [register] at registered
  split at registered
  · cases registered
  · rename_i opened
    cases registered
    exact cancelled_of_openStreams opened

theorem error_of_hydrate {pending : List (Gvk × TaskId)} (h : w.hydrate pending = .error e) :
    e ≠ .cancelled := by
  obtain ⟨_, _, -, -, ⟨-, same⟩ | ⟨gvk, _, _, -, -, ⟨-, same⟩ | ⟨-, same⟩⟩⟩ :=
    w.hydrate_cases pending
  · cases h.symm.trans same
  · cases h.symm.trans same
  · cases h.symm.trans same
    simp

/-- Waiting for streams fails with a cancellation exactly if the token has fired. -/
theorem cancelled_of_hydration {fired : Bool} {pending : List (Gvk × TaskId)} {limit : Duration}
    {due : Nat} (failed : w.hydration fired pending limit due = .error (.error e)) :
    e = .cancelled ↔ fired = true := by
  rw [hydration] at failed
  split at failed
  · rename_i is
    cases failed
    simp [is]
  · rename_i unfired
    split at failed
    · rename_i hydrated
      cases failed
      simp [unfired, error_of_hydrate hydrated]
    · cases failed
    · split at failed
      · cases failed
        simp [unfired]
      · cases failed

/-- A startup that fails is cancelled if the token has fired, and else only if the provider
gives that as its reason. -/
theorem StartupTurn.cancelled {state : Startup} (turn : StartupTurn w state (.ended (.error e)))
    (runs : state ≠ .ended (.error e)) :
    (w.fired = true → e = .cancelled) ∧
      (e = .cancelled → w.fired = true ∨ w.Refuses .cancelled) := by
  generalize new : Startup.ended (.error e) = state' at turn
  cases turn with
  | stays => exact absurd new.symm runs
  | fails refused =>
      cases new
      exact cancelled_of_register refused
  | opens | waits => cases new
  | @answers r pending due result answer =>
      cases result with
      | ok => cases new
      | error =>
          cases new
          have cancelled := cancelled_of_hydration answer
          exact ⟨cancelled.2, fun same => .inl (cancelled.1 same)⟩

/-- Nobody who goes on has a say in which streams can be opened. -/
theorem act_failing (w : Engine) (t : TaskId) :
    (w.act t).1.provider.failing = w.provider.failing := by
  cases found : w.tasks[t]? with
  | none => simp only [act, found]
  | some task =>
      cases task with
      | startup state =>
          obtain ⟨_, _, _, same, -⟩ := w.actStartup_terms t state
          simp only [act, found]
          exact congrArg Terms.refusals same
      | hydration call =>
          obtain ⟨_, _, same, -⟩ := w.actHydration_terms t call
          simp only [act, found]
          exact congrArg Terms.refusals same
      | join call =>
          obtain ⟨_, _, same, -⟩ := w.actJoin_terms t call
          simp only [act, found]
          exact congrArg Terms.refusals same
      | pipeline state =>
          obtain ⟨_, same⟩ := w.actPipeline_terms t state
          simp only [act, found]
          exact congrArg Terms.refusals same
      | _ => exact congrArg Terms.refusals (act_terms found rfl)

/-- Whether the provider never gives a cancellation as its reason, as far as a past goes. -/
def Candid (past : Past Engine Command) : Prop :=
  ∀ entry ∈ past, ∀ gvk, entry.2 ≠ .command (.failOn gvk .cancelled)

/-- A stream is refused for a reason that was given from outside. -/
theorem failOn_of_refuses (run : conduct.Run (ofPlan options plan) past w) (refuses : w.Refuses e) :
    ∃ entry ∈ past, ∃ gvk, entry.2 = .command (.failOn gvk e) := by
  induction run with
  | start =>
      obtain ⟨gvk, given⟩ := refuses
      simp [ofPlan] at given
  | @next past w x run possible ih =>
      have earlier (refuses : w.Refuses e) :
          ∃ entry ∈ past ++ [(w, x)], ∃ gvk, entry.2 = .command (.failOn gvk e) := by
        obtain ⟨entry, member, given⟩ := ih refuses
        exact ⟨entry, List.mem_append_left _ member, given⟩
      obtain ⟨gvk, given⟩ := refuses
      obtain ⟨s, same⟩ := w.after_eq x
      rw [same] at given
      cases x with
      | move t => exact earlier ⟨gvk, w.act_failing t ▸ given⟩
      | elapse time => exact earlier ⟨gvk, given⟩
      | command c =>
          by_cases about : ∃ gvk e, c = .failOn gvk e
          · obtain ⟨gvk', e', rfl⟩ := about
            obtain same | old := List.mem_cons.1 given
            · cases same
              exact ⟨(w, _), by simp, gvk, rfl⟩
            · exact earlier ⟨gvk, old⟩
          · have spared := (w.apply_spares c).refusals fun gvk e same => about ⟨gvk, e, same⟩
            exact earlier ⟨gvk, spared ▸ given⟩

theorem Candid.not_refuses (candid : Candid past) (run : conduct.Run (ofPlan options plan) past w) :
    ¬ w.Refuses .cancelled := by
  intro refuses
  obtain ⟨entry, member, gvk, given⟩ := failOn_of_refuses run refuses
  exact candid entry member gvk given

end Causes

section Gate

/-! ### Who settles the gate -/

/-- A startup that goes on leaves the gate as it is, or ends. -/
theorem actStartup_gate (w : Engine) (t : TaskId) (state : Startup) :
    (w.actStartup t state).1.gate = w.gate ∨
      ∃ (w' : Engine) (result : Except WatchError Registration),
        (w.actStartup t state).1 = w'.endStartup t result := by
  have ends (w₁ : Engine) (outcome : Except WatchError Registration) :
      ∃ (w' : Engine) (result : Except WatchError Registration),
        w₁.endStartup t outcome = w'.endStartup t result := ⟨w₁, outcome, rfl⟩
  cases state with
  | ended => exact .inl rfl
  | fresh =>
      have opened := w.register_terms
      simp only [actStartup]
      split
      · right
        dsimp only
        exact ends _ _
      · rename_i w₁ r registered
        rw [registered] at opened
        have silent := noticeSilence_terms { w₁ with spare := false }
        have still : w₁.gate = w.gate := congrArg Terms.gate opened
        exact .inl ((congrArg Terms.gate silent).trans still)
  | hydrating =>
      simp only [actStartup]
      split
      · exact .inl rfl
      all_goals
        right
        dsimp only
        exact ends _ _

/-- Whoever goes on leaves the gate as it is, unless it is a startup that ends. -/
theorem act_gate (w : Engine) (t : TaskId) :
    (w.act t).1.gate = w.gate ∨ ∃ (state : Startup) (result : Except WatchError Registration),
      w.tasks[t]? = some (.startup state) ∧
        (w.act t).1.tasks[t]? = some (.startup (.ended result)) := by
  cases found : w.tasks[t]? with
  | none =>
      simp only [act, found]
      exact .inl trivial
  | some task =>
      cases task with
      | startup state =>
          obtain same | ⟨w', result, ends⟩ := w.actStartup_gate t state
          · simp only [act, found]
            exact .inl same
          · obtain ⟨state', found', -⟩ := startupTurn_act found
            refine .inr ⟨state, result, rfl, ?_⟩
            simp only [act, found] at found' ⊢
            rw [ends, endStartup_tasks] at found' ⊢
            exact List.getElem?_set_self (by
              simpa [setTask] using (List.getElem?_eq_some_iff.1 found').1)
      | hydration call =>
          obtain ⟨_, _, same, -⟩ := w.actHydration_terms t call
          simp only [act, found]
          exact .inl (congrArg Terms.gate same)
      | join call =>
          obtain ⟨_, _, same, -⟩ := w.actJoin_terms t call
          simp only [act, found]
          exact .inl (congrArg Terms.gate same)
      | pipeline state =>
          obtain ⟨_, same⟩ := w.actPipeline_terms t state
          simp only [act, found]
          exact .inl (congrArg Terms.gate same)
      | _ => exact .inl (congrArg Terms.gate (act_terms found rfl))

/-- What is done from outside leaves the gate as it is, except that a startup is given up. -/
theorem apply_gate (w : Engine) (c : Command) :
    (w.apply c).1.gate = w.gate ∨ w.idleStartup = true ∧ (w.apply c).1.idleStartup = false := by
  by_cases given : c = .dropStartup
  · subst given
    simp only [apply]
    split
    · rename_i idle
      exact .inr ⟨idle, congrArg Terms.idleStartup (noticeSilence_terms
        { w with idleStartup := false, spare := false })⟩
    · exact .inl rfl
  · exact .inl ((w.apply_spares c).gate given)

/-- What the gate tells is as it was, unless a startup is given up or ends. -/
theorem gate_after (w : Engine) (x : Happening Command) :
    (conduct.after w x).gate = w.gate ∨
      w.idleStartup = true ∧ (conduct.after w x).idleStartup = false ∨
      ∃ (t : TaskId) (state : Startup) (result : Except WatchError Registration),
        w.tasks[t]? = some (.startup state) ∧
          (conduct.after w x).tasks[t]? = some (.startup (.ended result)) := by
  obtain ⟨s, same⟩ := w.after_eq x
  rw [same]
  cases x with
  | move t =>
      exact (w.act_gate t).imp_right fun ⟨state, result, ends⟩ => .inr ⟨t, state, result, ends⟩
  | elapse time => exact .inl rfl
  | command c => exact (w.apply_gate c).imp_right .inl

/-- The gate tells what startup has come to. -/
structure Agrees (w : Engine) : Prop where
  idle : w.idleStartup = true → w.gate = .pending
  filled : ∀ (t : TaskId) (task : EngineTask), w.tasks[t]? = some task →
    task.fills .startup = true → w.gate = task.verdict

theorem Agrees.startup (h : w.Agrees) {state : Startup}
    (found : w.tasks[t]? = some (.startup state)) : w.gate = state.verdict :=
  h.filled t _ found rfl

/-- As long as whoever fills the post of startup has not ended, the gate stays as it is. -/
theorem gate_of_filled (watchful : w.Watchful) (found : w.tasks[t]? = some task)
    (fills : task.fills .startup = true)
    (runs : ∀ result, (conduct.after w x).tasks[t]? ≠ some (.startup (.ended result))) :
    (conduct.after w x).gate = w.gate := by
  obtain same | ⟨idle, -⟩ | ⟨u, state, result, there, ends⟩ := w.gate_after x
  · exact same
  · cases (watchful.sole.none .startup idle t task found).symm.trans fills
  · obtain rfl := watchful.sole.one .startup t u task _ found there fills rfl
    exact absurd ends (runs result)

/-- Whoever fills the post of startup anew finds the gate pending. -/
theorem Agrees.begun (h : w.Agrees) (watchful : w.Watchful)
    (possible : conduct.Possible past w x) (begets : w.Begets x task)
    (fills : task.fills .startup = true) : (conduct.after w x).gate = .pending := by
  obtain ⟨t, rfl, found⟩ | ⟨rfl, idle⟩ | ⟨rfl, -⟩ | ⟨rfl, idle, idle'⟩ :=
    eq_of_begets begets fills
  · refine (gate_of_filled watchful found rfl fun result ends => ?_).trans
      (h.filled t _ found rfl)
    obtain ⟨new, found', becomes⟩ := (passes_after watchful possible).evolves t _ found
    cases found'.symm.trans ends
    exact becomes.resembles.elim
  · refine Eq.trans ?_ (h.idle idle)
    simp only [Conduct.after, conduct, apply, idle, if_true]
    rfl
  · obtain ⟨-, rfl⟩ := begets
    cases fills
  · refine Eq.trans ?_ (h.idle idle)
    simp only [Conduct.after, conduct, apply, idle, idle', Bool.and_true, if_true]
    rfl

theorem settled_of_turn {state state' : Startup} (lasts : Lasts w w')
    (before : w.gate = state.verdict) (turn : StartupTurn w state state')
    (settles : w.Settles w' state state')
    (stays : (∀ result, state' ≠ .ended result) → w'.gate = w.gate) :
    w'.gate = state'.verdict := by
  have pending (on_its_way : state.verdict = .pending) {result : Except WatchError Registration}
      (now : w'.gate = w.gate.settle (Startup.ended result).verdict) :
      w'.gate = (Startup.ended result).verdict := by
    rw [now, before, on_its_way]
    rfl
  cases turn with
  | stays =>
      cases state with
      | fresh | hydrating => exact (stays (by simp)).trans before
      | ended result =>
          refine (lasts.gate ?_).trans before
          cases result <;> simp [before, Startup.verdict]
  | fails => exact pending rfl (settles.resolve_left (by simp))
  | opens | waits => exact (stays (by simp)).trans before
  | answers => exact pending rfl (settles.resolve_left (by simp))

/-- Whatever happens, the gate tells what startup has come to. -/
theorem Agrees.after (h : w.Agrees) (watchful : w.Watchful)
    (possible : conduct.Possible past w x) : (conduct.after w x).Agrees := by
  have passes := passes_after watchful possible
  constructor
  · intro idle
    have idle₀ := passes.lasts.idleStartup idle
    obtain same | ⟨-, begun⟩ | ⟨u, state, result, there, -⟩ := w.gate_after x
    · exact same.trans (h.idle idle₀)
    · cases idle.symm.trans begun
    · cases (watchful.sole.none .startup idle₀ u _ there).symm.trans rfl
  · intro t task found fills
    cases there : w.tasks[t]? with
    | none =>
        obtain begets | ⟨q, -, rfl, -⟩ := passes.new t task there found
        · exact (h.begun watchful possible begets fills).trans
            (EngineTask.verdict_of_begins (begins_of_begets begets)).symm
        · cases fills
    | some old =>
        obtain ⟨new, found', becomes⟩ := passes.evolves t old there
        obtain rfl := Option.some.inj (found'.symm.trans found)
        have before := h.filled t old there (becomes.resembles.fills fills)
        have stays (runs : ∀ result, new ≠ .startup (.ended result)) :
            (conduct.after w x).gate = w.gate := by
          refine gate_of_filled watchful there (becomes.resembles.fills fills) fun result ends => ?_
          exact runs result (Option.some.inj (found.symm.trans ends))
        cases new with
        | pipeline state =>
            cases old with
            | pipeline => exact (stays (by simp)).trans before
            | _ => exact becomes.resembles.elim
        | startup state' =>
            cases old with
            | startup state =>
                obtain ⟨state'', found'', turn, settles⟩ :=
                  startupTurn_after watchful possible there
                cases found.symm.trans found''
                exact settled_of_turn passes.lasts before turn settles fun runs =>
                  stays (by simpa using runs)
            | _ => exact becomes.resembles.elim
        | _ => cases fills

theorem agrees_of_run (run : conduct.Run (ofPlan options plan) past w) : w.Agrees := by
  induction run with
  | start => exact ⟨fun _ => rfl, by simp [ofPlan]⟩
  | next run possible ih => exact ih.after (watchful_of_run run) possible

end Gate

/-- A pipeline that has not ended but is about to has let the token fire. -/
theorem fired_of_over (run : conduct.Run (ofPlan options plan) past w) {state : Pipeline}
    (found : w.tasks[t]? = some (.pipeline state)) (stops : state.isOver = true) :
    w.fired = true ∨ ∃ result, state = .ended result := by
  induction run generalizing state with
  | start => simp [ofPlan] at found
  | next run possible ih =>
      have watchful := watchful_of_run run
      obtain ⟨old, there, turn, halts⟩ | rfl := pipeline_was watchful possible found
      · cases was : old.isOver with
        | false => exact halts was stops
        | true =>
            obtain fired | ⟨result, rfl⟩ := ih there was
            · exact .inl ((passes_after watchful possible).lasts.fired fired)
            · cases turn
              exact .inr ⟨result, rfl⟩
      · cases stops

end Engine

end ResourceWatch
