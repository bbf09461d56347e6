import ResourceWatch.Proofs.Engine.Carriage
import ResourceWatch.Proofs.Engine.Settling

/-!
# Whose the streams and the channel are

Startup owns its streams: if nobody else opens any, every pump is one that startup has
opened, and a startup that has failed has told all of them to end.

The source owns what is in the channel. If nobody else receives, a source that has not
stopped has handed over all that entered, up to what is in the channel. It stops of itself
only when nothing is there and nothing can come, so by then it has handed over all.
-/

namespace ResourceWatch

/-- What startup has to do with a pump: it has opened it, and if it has failed, the pump is
to end. -/
def Startup.Owns (t : TaskId) (q : Pump) : Startup → Prop
  | .fresh => False
  | .hydrating r _ _ | .ended (.ok r) => t ∈ r.pumps
  | .ended (.error _) => q.aborted = true ∨ q.state = .ended

theorem Startup.Owns.becomes {state : Startup} {t : TaskId} {q q' : Pump} (h : state.Owns t q)
    (becomes : (EngineTask.pump q).Becomes (.pump q')) : state.Owns t q' := by
  cases state with
  | fresh | hydrating => exact h
  | ended result =>
      cases result with
      | ok => exact h
      | error =>
          obtain aborted | ended := h
          · exact .inl (becomes.resembles.aborted aborted)
          · have final := becomes.final (by simp [EngineTask.isEnded, ended])
            obtain rfl : q' = q := by simpa using final
            exact .inr ended

namespace Engine

/-- Whether a command leaves it to startup to open streams. -/
def Command.respects : Command → Bool
  | .register | .observe .. => false
  | _ => true

/-- Whether somebody other than the source receives, or nobody is to any more. -/
def intrudes : Happening Command → Bool
  | .command .receive | .command .dropReceiver => true
  | _ => false

/-- Anything may be done at any time, except that nobody but startup opens streams. -/
def ownedConduct : Conduct Engine Command where
  apply w c := (w.apply c).1
  allows _ c := c.respects

variable {options : EngineOptions} {plan : WatchPlan} {w w' : Engine} {t u : TaskId}
  {task : EngineTask} {state : Startup} {x : Happening Command} {past : Past Engine Command}
  {watches : List PlannedWatch} {r : Registration} {e : WatchError}

theorem allows_of_owned {c : Command} (allowed : ownedConduct.allows past c = true) :
    conduct.allows past c = true := by
  cases c <;> simp_all [conduct, Command.observes, ownedConduct, Command.respects]

theorem possible_of_owned (possible : ownedConduct.Possible past w x) :
    conduct.Possible past w x := by
  cases x with
  | move | elapse => exact possible
  | command c => exact allows_of_owned possible

theorem conduct_of_owned (run : ownedConduct.Run (ofPlan options plan) past w) :
    conduct.Run (ofPlan options plan) past w :=
  Conduct.Run.mono (c := ownedConduct) (fun _ _ => rfl) (fun _ _ => allows_of_owned) run

/-- A run without streams that are opened by hand. -/
theorem owned_of_conduct (run : conduct.Run (ofPlan options plan) past w)
    (unaided : ∀ entry ∈ past, entry.2 ≠ .command .register) :
    ownedConduct.Run (ofPlan options plan) past w := by
  induction run with
  | start => exact .start
  | @next past w x run possible ih =>
      refine (ih fun entry member => unaided entry (List.mem_append_left _ member)).next ?_
      have by_hand : x ≠ .command .register := unaided (w, x) (by simp)
      cases x with
      | move | elapse => exact possible
      | command c => cases c <;> first | rfl | exact absurd rfl by_hand | cases possible

section Streams

/-! ### The streams of startup -/

/-- Startup owns every pump. -/
def Owned (w : Engine) (state : Startup) : Prop :=
  ∀ (t : TaskId) (q : Pump), w.tasks[t]? = some (.pump q) → state.Owns t q

theorem Owned.congr (h : w.Owned state) (same : w'.tasks = w.tasks) : w'.Owned state := by
  intro t q found
  exact h t q (same ▸ found)

/-- When a registration is let go of, its pumps are to end. -/
theorem Owned.drop (h : w.Owned (.ended (.ok r))) (e : WatchError) :
    (w.drop r).Owned (.ended (.error e)) := by
  intro t q' found
  obtain ⟨schedule, -, -, marked, -⟩ := w.path_abort r.pumps
  have role : (w.drop r).role t = (w.path.abandon r.pumps).role t :=
    congrArg (Path.role · t) marked
  rw [role_eq_pump.2 found] at role
  by_cases member : t ∈ r.pumps
  · obtain same | ⟨q, -, -, rfl⟩ := Path.role_of_abandon role.symm
    · by_contra kept
      rw [Path.abandon_role, if_pos member, show w.path.role t = .pump q' from same] at role
      simp only [Startup.Owns, not_or] at kept
      simp only [Role.abandon, if_neg kept.2, Role.pump.injEq] at role
      exact kept.1 (congrArg Pump.aborted role)
    · exact .inl rfl
  · rw [Path.abandon_role, if_neg member] at role
    exact absurd (h t q' (role_eq_pump.1 role.symm)) member

/-- Startup owns every pump that it opens, and has all of them end if it cannot go on. -/
theorem Owned.openStreams (h : w.Owned (.ended (.ok r))) :
    (w.openStreams r watches).1.Owned (.ended (w.openStreams r watches).2) := by
  induction watches generalizing w r with
  | nil => exact h
  | cons watch rest ih =>
      rw [Engine.openStreams]
      split
      · exact h.drop _
      · dsimp only
        split
        · rename_i provider e _
          exact Owned.drop (w := { w with provider }) h e
        · refine ih fun t q found => ?_
          obtain found | ⟨rfl, -⟩ := spawn_was found
          · exact List.mem_append_left _ (h t q found)
          · exact List.mem_append_right _ (List.mem_singleton.2 rfl)

theorem Owned.setTask (h : w.Owned state) (t : TaskId) (new : Startup) :
    (w.setTask t (.startup new)).Owned state := by
  intro u q found
  by_cases same : t = u
  · subst same
    have known : t < w.tasks.length := by
      simpa [Engine.setTask] using (List.getElem?_eq_some_iff.1 found).1
    simp [Engine.setTask, List.getElem?_set_self known] at found
  · exact h u q ((List.getElem?_set_ne same).symm.trans found)

theorem Owned.turned {state' : Startup} (h : w.Owned state)
    (tasks : w'.tasks = (w.setTask t (.startup state)).tasks)
    (found' : w'.tasks[t]? = some (.startup state')) : w'.Owned state' := by
  have owned := (h.setTask t state).congr tasks
  rw [tasks] at found'
  have known : t < w.tasks.length := by
    simpa [Engine.setTask] using (List.getElem?_eq_some_iff.1 found').1
  rw [Engine.setTask, List.getElem?_set_self known] at found'
  cases found'
  exact owned

theorem Owned.dropSpare (h : w.Owned state) : w.dropSpare.Owned state :=
  h.congr (noticeSilence_tasks { w with spare := false })

/-- Before startup opens its streams there are no pumps; those that are there afterwards are
its own. -/
theorem Owned.register (h : w.Owned .fresh) : w.register.1.Owned (.ended w.register.2) := by
  have opened : (w.openStreams {} w.plan.watches).1.Owned
      (.ended (w.openStreams {} w.plan.watches).2) :=
    Owned.openStreams fun t q found => (h t q found).elim
  rw [Engine.register]
  split
  all_goals
    rename_i result
    rw [result] at opened
    exact opened

theorem owned_act {state' : Startup} (found : w.tasks[t]? = some (.startup state))
    (h : w.Owned state) (found' : (w.act t).1.tasks[t]? = some (.startup state')) :
    (w.act t).1.Owned state' := by
  simp only [act, found] at found' ⊢
  cases state with
  | ended result => exact h.turned rfl found'
  | fresh =>
      have opened := h.register
      revert found'
      simp only [actStartup]
      split
      all_goals
        rename_i registered
        rw [registered] at opened
        intro found'
      · exact Owned.turned (Owned.dropSpare (w := settleGate _ _) opened)
          (endStartup_tasks _ _ _) found'
      · rename_i w₁ r
        have still : w₁.dropSpare.Owned (.hydrating { r with pending := [] } r.pending
            (w₁.dropSpare.setTimer t w₁.limit).2) := Owned.dropSpare opened
        exact still.turned rfl found'
  | hydrating r pending due =>
      have opened : (w.clearTimers t).Owned (.ended (.ok r)) := h
      revert found'
      simp only [actStartup]
      split
      all_goals intro found'
      · rename_i rest _
        have still : w.Owned (.hydrating r rest due) := h
        exact still.turned rfl found'
      · exact Owned.turned opened (endStartup_tasks _ _ _) found'
      · rename_i e _
        exact Owned.turned (w := settleGate _ _) (opened.drop e) (endStartup_tasks _ _ _) found'

/-- Every pump is owned by startup. -/
def Supplied (w : Engine) : Prop :=
  ∀ (u : TaskId) (q : Pump), w.tasks[u]? = some (.pump q) →
    ∃ (t : TaskId) (state : Startup), w.tasks[t]? = some (.startup state) ∧ state.Owns u q

theorem Supplied.owned (h : w.Supplied) (sole : w.Sole)
    (found : w.tasks[t]? = some (.startup state)) : w.Owned state := by
  intro u q pump
  obtain ⟨v, state', there, owns⟩ := h u q pump
  obtain rfl := sole.one .startup v t _ _ there found rfl rfl
  cases there.symm.trans found
  exact owns

/-- Only startup opens streams. -/
theorem fresh_of_begets {q : Pump} (possible : ownedConduct.Possible past w x)
    (begets : w.Begets x (.pump q)) :
    ∃ t, x = .move t ∧ w.tasks[t]? = some (.startup .fresh) := by
  cases x with
  | move t =>
      obtain ⟨task, found, bears⟩ := begets
      refine ⟨t, rfl, ?_⟩
      cases task with
      | startup state =>
          cases state with
          | fresh => exact found
          | hydrating | ended => cases bears
      | pipeline state => cases state <;> simp [EngineTask.Bears] at bears
      | worker state => simp [EngineTask.Bears] at bears
      | _ => cases bears
  | elapse time => exact begets.elim
  | command c =>
      cases c with
      | register => cases possible
      | join alone => cases alone <;> simp [Begets, Command.Calls] at begets
      | _ => simp [Begets, Command.Calls] at begets

/-- Whatever happens, startup owns every pump. -/
theorem Supplied.after (h : w.Supplied) (watchful : w.Watchful)
    (possible : ownedConduct.Possible past w x) : (conduct.after w x).Supplied := by
  intro u q' found'
  have passes := passes_after watchful (possible_of_owned possible)
  by_cases opens : ∃ t state, x = .move t ∧ w.tasks[t]? = some (.startup state)
  · obtain ⟨t, state, rfl, found⟩ := opens
    obtain ⟨s, same⟩ := w.after_eq (.move t)
    obtain ⟨state', there, -⟩ := startupTurn_act found
    rw [same] at found' ⊢
    exact ⟨t, state', there, owned_act found (h.owned watchful.sole found) there u q' found'⟩
  · cases old : w.tasks[u]? with
    | none =>
        obtain begets | ⟨-, q, -, begets⟩ := passes.new u _ old found'
        all_goals
          obtain ⟨t, rfl, found⟩ := fresh_of_begets possible begets
          exact absurd ⟨t, _, rfl, found⟩ opens
    | some task =>
        obtain ⟨new, there, becomes⟩ := passes.evolves u task old
        cases found'.symm.trans there
        cases task with
        | pump q =>
            obtain ⟨t, state, found, owns⟩ := h u q old
            obtain rfl | still := stays_after watchful (possible_of_owned possible) found
              (by simp) (by simp)
            · exact absurd ⟨t, state, rfl, found⟩ opens
            · exact ⟨t, state, still, owns.becomes becomes⟩
        | _ => exact becomes.resembles.elim

theorem supplied_of_run (run : ownedConduct.Run (ofPlan options plan) past w) : w.Supplied := by
  induction run with
  | start => exact fun u q found => by simp [ofPlan] at found
  | next run possible ih => exact ih.after (watchful_of_run (conduct_of_owned run)) possible

end Streams

section Channel

/-! ### The channel of the source -/

/-- Whoever fills a post filled it before or was begun by who did, unless it was vacant. -/
theorem filled_after (watchful : w.Watchful) (possible : conduct.Possible past w x)
    {post : Post} (found' : (conduct.after w x).tasks[t]? = some task)
    (fills : task.fills post = true) :
    w.vacant post = true ∨ ∃ u old, w.tasks[u]? = some old ∧ old.fills post = true ∧
      (u = t ∧ old.Becomes task ∨ old = .pipeline .fresh) := by
  have passes := passes_after watchful possible
  cases old : w.tasks[t]? with
  | some task' =>
      obtain ⟨new, there, becomes⟩ := passes.evolves t task' old
      cases found'.symm.trans there
      exact .inr ⟨t, task', old, becomes.resembles.fills fills, .inl ⟨rfl, becomes⟩⟩
  | none =>
      obtain begets | ⟨q, -, rfl, -⟩ := passes.new t task old found'
      · obtain ⟨u, rfl, found⟩ | ⟨rfl, idle⟩ | ⟨rfl, idle⟩ | ⟨rfl, idle, idle'⟩ :=
          eq_of_begets begets fills
        · refine .inr ⟨u, _, found, ?_, .inr rfl⟩
          cases post <;> rfl
        · obtain ⟨-, rfl⟩ := begets
          cases post <;> first | exact .inl idle | cases fills
        · obtain ⟨-, rfl⟩ := begets
          cases post <;> first | exact .inl idle | cases fills
        · cases post <;> first | exact .inl idle | exact .inl idle'
      · cases post <;> cases fills

/-- Nobody but those that go on touches the belt, except that a source is given up before it
begins. -/
theorem belt_after (w : Engine) (alone : intrudes x = false) :
    (∃ t, x = .move t ∧ Carries w t (conduct.after w x).belt) ∨
      (conduct.after w x).belt = w.belt ∨ x = .command .dropSource ∧ w.idleSource = true := by
  obtain ⟨s, same⟩ := w.after_eq x
  rw [same]
  cases x with
  | move t => exact .inl ⟨t, rfl, w.carries_act t⟩
  | elapse time => exact .inr (.inl rfl)
  | command c =>
      refine .inr ?_
      obtain still | ⟨receives, -⟩ := w.apply_belt c
      · exact .inl still
      · cases c with
        | dropSource =>
            by_cases idle : w.idleSource = true
            · exact .inr ⟨rfl, idle⟩
            · refine .inl ?_
              show (w.apply .dropSource).1.belt = w.belt
              simp only [apply, idle]
              rfl
        | receive | dropReceiver => cases alone
        | _ => cases receives

theorem after_dropSource (idle : w.idleSource = true) :
    conduct.after w (.command .dropSource) = { w with idleSource := false }.dropReceiver := by
  simp only [Conduct.after, conduct, apply, idle, if_true]

/-- What the source has handed over, and what becomes of the channel with it. -/
structure Tended (w : Engine) : Prop where
  /-- The channel is closed only once the source has ended or was given up. -/
  shut : w.channel.closed = true → w.idleSource = false ∧
    ∀ (t : TaskId) (task : EngineTask), w.tasks[t]? = some task →
      task.fills .source = true → ∃ recording, task = .source .ended recording
  /-- As long as the channel is not closed, all is handed over that is not in it. -/
  due : w.channel.closed = false → w.belt.Balanced
  /-- A source that has ended of itself has handed over all. -/
  done : ∀ (t : TaskId) recording, w.tasks[t]? = some (.source .ended recording) →
    w.fired = false → w.belt.Delivered

theorem Tended.shut_after (h : w.Tended) (watchful : w.Watchful)
    (possible : conduct.Possible past w x) (alone : intrudes x = false)
    (closed : (conduct.after w x).channel.closed = true) :
    (conduct.after w x).idleSource = false ∧
      ∀ (t : TaskId) (task : EngineTask), (conduct.after w x).tasks[t]? = some task →
        task.fills .source = true → ∃ recording, task = .source .ended recording := by
  have after := watchful.after possible
  have lasts := (passes_after watchful possible).lasts
  by_cases was : w.channel.closed = true
  · obtain ⟨taken, all⟩ := h.shut was
    refine ⟨?_, fun t task found fills => ?_⟩
    · refine Bool.eq_false_iff.2 fun idle => ?_
      cases (lasts.idleSource idle).symm.trans taken
    · obtain vacant | ⟨u, old, there, fills, becomes⟩ :=
        filled_after watchful possible found fills
      · cases vacant.symm.trans taken
      · obtain ⟨recording, rfl⟩ := all u old there fills
        obtain ⟨-, becomes⟩ | same := becomes
        · exact ⟨recording, becomes.final rfl⟩
        · cases same
  · obtain ⟨t, rfl, -⟩ | same | ⟨rfl, idle⟩ := w.belt_after alone
    · obtain ⟨s, same⟩ := w.after_eq (.move t)
      rw [same] at closed after ⊢
      obtain closed | ⟨recording, ended⟩ := act_closed (w := w) closed
      · exact absurd closed was
      · refine ⟨?_, fun u task found fills => ?_⟩
        · refine Bool.eq_false_iff.2 fun idle => ?_
          cases (after.sole.none .source idle t _ ended).symm.trans rfl
        · obtain rfl := after.sole.one .source t u _ _ ended found rfl fills
          cases ended.symm.trans found
          exact ⟨recording, rfl⟩
    · exact absurd ((congrArg Belt.closed same).symm.trans closed) was
    · rw [after_dropSource idle]
      refine ⟨rfl, fun t task found fills => ?_⟩
      cases (watchful.sole.none .source idle t task found).symm.trans fills

/-- A source that has ended of itself has handed over all, and this does not change. -/
theorem Tended.done_after (h : w.Tended) (watchful : w.Watchful)
    (possible : conduct.Possible past w x) (alone : intrudes x = false) {recording : Bool}
    (ended : (conduct.after w x).tasks[t]? = some (.source .ended recording))
    (unfired : (conduct.after w x).fired = false) : (conduct.after w x).belt.Delivered := by
  have passes := passes_after watchful possible
  have unfired₀ : w.fired = false :=
    Bool.eq_false_iff.2 fun fired => Bool.eq_false_iff.1 unfired (passes.lasts.fired fired)
  obtain ⟨task, there, becomes⟩ | begins := passes.was ended
  · cases task with
    | source state recording' =>
        obtain ⟨state', found', turn⟩ :=
          sourceTurn_after watchful possible there
        cases found'.symm.trans ended
        cases turn with
        | stays =>
            have closed : w.channel.closed = true := watchful.grounded t _ there
            obtain ⟨taken, all⟩ := h.shut closed
            have done := h.done t _ there unfired₀
            obtain ⟨u, rfl, carries⟩ | same | ⟨rfl, idle⟩ := w.belt_after alone
            · generalize (conduct.after w (.move u)).belt = b at carries
              cases carries with
              | stays | stops => exact done
              | enters e _ _ _ _ unclosed => cases unclosed.symm.trans closed
              | hands found =>
                  obtain ⟨_, same⟩ := all u _ found rfl
                  cases same
            · exact same ▸ done
            · cases idle.symm.trans taken
        | stops reason stopped =>
            obtain fired | ⟨empty, -⟩ := reason
            · cases fired.symm.trans unfired₀
            · rw [stopped]
              refine (h.due (Bool.eq_false_iff.2 fun closed => ?_)).delivered empty
              obtain ⟨_, same⟩ := (h.shut closed).2 t _ there rfl
              cases same
    | _ => exact becomes.resembles.elim
  · cases begins

theorem Tended.after (h : w.Tended) (watchful : w.Watchful)
    (possible : conduct.Possible past w x) (alone : intrudes x = false) :
    (conduct.after w x).Tended := by
  have lasts := (passes_after watchful possible).lasts
  refine ⟨h.shut_after watchful possible alone, fun unclosed => ?_,
    fun t recording => h.done_after watchful possible alone⟩
  have due := h.due (Bool.eq_false_iff.2 fun closed =>
    Bool.eq_false_iff.1 unclosed (lasts.closed closed))
  obtain ⟨u, rfl, carries⟩ | same | ⟨rfl, idle⟩ := w.belt_after alone
  · generalize carried : (conduct.after w (.move u)).belt = b at carries ⊢
    cases carries with
    | stays => exact due
    | enters e => exact due.enter e
    | hands found unfired next => exact due.hand next
    | stops => cases (congrArg Belt.closed carried).symm.trans unclosed
  · exact same ▸ due
  · rw [after_dropSource idle] at unclosed
    cases unclosed

theorem tended_of_run (run : conduct.Run (ofPlan options plan) past w)
    (alone : ∀ entry ∈ past, intrudes entry.2 = false) : w.Tended := by
  induction run with
  | start =>
      have due : (ofPlan options plan).belt.Balanced := by
        rw [ofPlan_belt]
        exact ⟨[], rfl, rfl⟩
      exact ⟨by simp [ofPlan], fun _ => due, by simp [ofPlan]⟩
  | @next past w x run possible ih =>
      have ih := ih fun entry member => alone entry (List.mem_append_left _ member)
      exact ih.after (watchful_of_run run) possible (alone (w, x) (by simp))

end Channel

end Engine

end ResourceWatch
