import ResourceWatch.Proofs.Engine.Watchful

/-!
# Waiting for streams, one after the other

Whoever waits for streams goes through them in order and stops at the first that has not
told yet that its first full list is complete. If that one has ended, waiting fails at
once; if it is on its way, waiting goes on, whatever has become of those behind it.

A call from outside takes the streams of the kept registration with it when it is its
turn. `CallTurn` and `StartupTurn` say once what can become of a call and of startup.
-/

namespace ResourceWatch

/-- What the gate is told by a startup that has ended. -/
def Startup.verdict : Startup → SyncState
  | .ended (.ok _) => .synced
  | .ended (.error _) => .cancelled
  | .fresh | .hydrating .. => .pending

namespace Engine

variable {w w' : Engine} {t u : TaskId} {task new : EngineTask} {x : Happening Command}
  {past : Past Engine Command} {pending rest : List (Gvk × TaskId)} {pumps : List TaskId}

/-- A pump has told that the first full list of its stream is complete. -/
def Told (w : Engine) (t : TaskId) : Prop :=
  ∃ q, w.tasks[t]? = some (.pump q) ∧ q.hydrated = true

/-- A pump has ended before the first full list of its stream was complete. -/
def Fell (w : Engine) (t : TaskId) : Prop :=
  ∃ q, w.tasks[t]? = some (.pump q) ∧ q.hydrated = false ∧ q.state = .ended

theorem Told.evolves (h : w.Told t) (evolves : w.Evolves w') : w'.Told t := by
  obtain ⟨q, found, hydrated⟩ := h
  obtain ⟨new, found', becomes⟩ := evolves t _ found
  cases new with
  | pump q' => exact ⟨q', found', becomes.resembles.hydrated hydrated⟩
  | _ => exact becomes.resembles.elim

theorem Fell.evolves (h : w.Fell t) (evolves : w.Evolves w') : w'.Fell t := by
  obtain ⟨q, found, unhydrated, ended⟩ := h
  exact ⟨q, evolves.final found (by simpa [EngineTask.isEnded] using ended), unhydrated, ended⟩

theorem Fell.not_told (h : w.Fell t) : ¬ w.Told t := by
  rintro ⟨q, found, hydrated⟩
  obtain ⟨q', found', unhydrated, -⟩ := h
  cases found.symm.trans found'
  simp [hydrated] at unhydrated

theorem Untold.not_told (h : w.Untold t) : ¬ w.Told t := by
  rintro ⟨q, found, hydrated⟩
  obtain ⟨task, found', untold⟩ := h
  cases found.symm.trans found'
  simp [EngineTask.isUntold, hydrated] at untold

theorem Untold.not_fell (h : w.Untold t) : ¬ w.Fell t := by
  rintro ⟨q, found, -, ended⟩
  obtain ⟨task, found', untold⟩ := h
  cases found.symm.trans found'
  simp [EngineTask.isUntold, ended] at untold

theorem told_of_any (any : (w.pump? t).any (·.hydrated) = true) : w.Told t := by
  obtain ⟨q, pump, hydrated⟩ := (Option.any_eq_true _ _).1 any
  exact ⟨q, role_eq_pump.1 (pump?_eq_some.1 pump), hydrated⟩

theorem fell_of_any
    (any : (w.pump? t).any (fun q => !q.hydrated && q.state == .ended) = true) : w.Fell t := by
  obtain ⟨q, pump, fell⟩ := (Option.any_eq_true _ _).1 any
  exact ⟨q, role_eq_pump.1 (pump?_eq_some.1 pump), by simpa using fell⟩

/-- Waiting stops at the first stream that has not told yet, and fails if that one cannot
tell any more. -/
theorem hydrate_cases (w : Engine) (pending : List (Gvk × TaskId)) :
    ∃ front rest, pending = front ++ rest ∧ (∀ entry ∈ front, w.Told entry.2) ∧
      (rest = [] ∧ w.hydrate pending = .ok [] ∨
        ∃ gvk v more, rest = (gvk, v) :: more ∧ ¬ w.Told v ∧
          (w.Untold v ∧ w.hydrate pending = .ok rest ∨
            ¬ w.Untold v ∧ w.hydrate pending = .error (.streamClosed gvk))) := by
  induction pending with
  | nil => exact ⟨[], [], rfl, by simp, .inl ⟨rfl, rfl⟩⟩
  | cons entry pending ih =>
      obtain ⟨gvk, v⟩ := entry
      by_cases told : w.Told v
      · obtain ⟨q, found, hydrated⟩ := told
        have same : w.hydrate ((gvk, v) :: pending) = w.hydrate pending := by
          simp [hydrate, pump?, found, hydrated]
        obtain ⟨front, rest, rfl, all, answer⟩ := ih
        refine ⟨(gvk, v) :: front, rest, rfl, ?_, same ▸ answer⟩
        rintro entry (_ | ⟨_, member⟩)
        · exact ⟨q, found, hydrated⟩
        · exact all entry member
      · refine ⟨[], (gvk, v) :: pending, rfl, by simp, .inr ⟨gvk, v, pending, rfl, told, ?_⟩⟩
        by_cases untold : w.Untold v
        · obtain ⟨task, found, is⟩ := untold
          cases task with
          | pump q =>
              have on_its_way : q.hydrated = false ∧ q.state ≠ .ended := by
                simpa [EngineTask.isUntold] using is
              refine .inl ⟨⟨_, found, is⟩, ?_⟩
              simp [hydrate, pump?, found, on_its_way]
          | _ => cases is
        · refine .inr ⟨untold, ?_⟩
          rw [hydrate]
          split
          · rename_i q pump
            have found : w.tasks[v]? = some (.pump q) := role_eq_pump.1 (pump?_eq_some.1 pump)
            have unhydrated : q.hydrated = false := by
              by_contra hydrated
              exact told ⟨q, found, by simpa using hydrated⟩
            have ended : q.state = .ended := by
              by_contra live
              exact untold ⟨_, found, by simp [EngineTask.isUntold, unhydrated, live]⟩
            simp [unhydrated, ended]
          · rfl

theorem split_of_hydrate (h : w.hydrate pending = .ok rest) :
    ∃ front, pending = front ++ rest ∧ ∀ entry ∈ front, w.Told entry.2 := by
  obtain ⟨front, rest', split, all, ⟨rfl, same⟩ | ⟨_, _, _, -, -, ⟨-, same⟩ | ⟨-, same⟩⟩⟩ :=
    w.hydrate_cases pending
  · cases h.symm.trans same
    exact ⟨front, split, all⟩
  · cases h.symm.trans same
    exact ⟨front, split, all⟩
  · cases h.symm.trans same

/-- Waiting fails because of the first stream that has not told. -/
theorem split_of_hydrate_error {e : WatchError} (manned : w.Manned pumps pending)
    (h : w.hydrate pending = .error e) :
    ∃ front gvk v more, e = .streamClosed gvk ∧ pending = front ++ (gvk, v) :: more ∧
      (∀ entry ∈ front, w.Told entry.2) ∧ w.Fell v := by
  obtain ⟨front, rest, rfl, all, ⟨-, same⟩ |
    ⟨gvk, v, more, rfl, untold, ⟨-, same⟩ | ⟨gone, same⟩⟩⟩ := w.hydrate_cases pending
  · cases h.symm.trans same
  · cases h.symm.trans same
  · cases h.symm.trans same
    refine ⟨front, gvk, v, more, rfl, rfl, all, ?_⟩
    obtain ⟨task, found, resembles⟩ := manned.pending (gvk, v) (by simp)
    cases task with
    | pump q =>
        have unhydrated : q.hydrated = false := by
          by_contra hydrated
          exact untold ⟨q, found, by simpa using hydrated⟩
        refine ⟨q, found, unhydrated, ?_⟩
        by_contra live
        exact gone ⟨_, found, by simp [EngineTask.isUntold, unhydrated, live]⟩
    | _ => exact resembles.elim

/-- Waiting ends well only if nothing is left to wait for. -/
theorem hydrate_of_answered {fired : Bool} {limit : Duration} {due : Nat}
    (answered : w.hydration fired pending limit due = .error (.ok ())) :
    w.hydrate pending = .ok [] := by
  obtain ⟨_, same, -⟩ | ⟨-, hydrated⟩ | ⟨e, same⟩ := @hydration_cases w fired pending limit due
  · cases answered.symm.trans same
  · exact hydrated
  · cases answered.symm.trans same

/-- What can become of a call that waits for streams. -/
inductive CallTurn (w : Engine) (t : TaskId) :
    Happening Command → HydrationCall → HydrationCall → Prop
  /-- It stays what it is. -/
  | stays (x : Happening Command) (call : HydrationCall) : CallTurn w t x call call
  /-- Its token fires. -/
  | fires (call : HydrationCall) : CallTurn w t (.command (.fireCall t)) call call.fire
  /-- It is given up. -/
  | drops {call : HydrationCall} (runs : (EngineTask.hydration call).isEnded = false) :
      CallTurn w t (.command (.dropCall t)) call .dropped
  /-- There is no registration. -/
  | misses (limit : Duration) (token : CallToken) :
      CallTurn w t (.move t) (.locking limit token) (.ended none)
  /-- It takes the streams of the registration. -/
  | seizes {r : Registration} (limit : Duration) (due : Nat) (token : CallToken)
      (seized : w.seizes t = some r) :
      CallTurn w t (.move t) (.locking limit token) (.hydrating r.pending limit due token)
  /-- It waits for those that are left. -/
  | waits {pending rest : List (Gvk × TaskId)} {limit : Duration} {due : Nat} {token : CallToken}
      (left : w.hydration (token.fired w.fired) pending limit due = .ok rest) :
      CallTurn w t (.move t) (.hydrating pending limit due token)
        (.hydrating rest limit due token)
  /-- It ends. -/
  | answers {pending : List (Gvk × TaskId)} {limit : Duration} {due : Nat} {token : CallToken}
      {result : Except WatchError Unit}
      (answer : w.hydration (token.fired w.fired) pending limit due = .error result) :
      CallTurn w t (.move t) (.hydrating pending limit due token) (.ended (some result))

inductive StartupTurn (w : Engine) : Startup → Startup → Prop
  /-- It stays what it is. -/
  | stays (state : Startup) : StartupTurn w state state
  /-- It cannot open the streams. -/
  | fails {w₁ : Engine} {e : WatchError} (refused : w.register = (w₁, .error e)) :
      StartupTurn w .fresh (.ended (.error e))
  /-- It waits for the streams that it has opened. -/
  | opens {w₁ : Engine} {r : Registration} (due : Nat) (registered : w.register = (w₁, .ok r)) :
      StartupTurn w .fresh (.hydrating { r with pending := [] } r.pending due)
  /-- It waits for those that are left. -/
  | waits {r : Registration} {pending rest : List (Gvk × TaskId)} {due : Nat}
      (left : w.hydration w.fired pending w.limit due = .ok rest) :
      StartupTurn w (.hydrating r pending due) (.hydrating r rest due)
  /-- It ends. -/
  | answers {r : Registration} {pending : List (Gvk × TaskId)} {due : Nat}
      {result : Except WatchError Unit}
      (answer : w.hydration w.fired pending w.limit due = .error result) :
      StartupTurn w (.hydrating r pending due) (.ended (result.map fun _ => r))

/-- A call that waits for streams uses the registration. -/
def Uses (w : Engine) (t : TaskId) : HydrationCall → Prop
  | .hydrating .. => w.lock.head? = some t
  | _ => True

/-- A startup that has just ended has settled the gate, unless that was settled. -/
def Settles (w w' : Engine) (state : Startup) : Startup → Prop
  | .ended result =>
    state = .ended result ∨ w'.gate = w.gate.settle (Startup.ended result).verdict
  | _ => True

/-- Whoever may use the registration is the first to have asked for it. -/
theorem head_of_acquire (acquired : (w.acquire t).2 = true) :
    (w.acquire t).1.lock.head? = some t := by
  rw [acquire] at acquired ⊢
  simpa using acquired

theorem callTurn_act {call : HydrationCall} (found : w.tasks[t]? = some (.hydration call)) :
    ∃ call', (w.act t).1.tasks[t]? = some (.hydration call') ∧
      CallTurn w t (.move t) call call' ∧ (w.Uses t call → (w.act t).1.Uses t call') := by
  simp only [act, found]
  cases call with
  | ended result => exact ⟨_, setTask_self found _, .stays _ _, id⟩
  | dropped => exact ⟨_, setTask_self found _, .stays _ _, id⟩
  | hydrating pending limit due token =>
      simp only [actHydration]
      split
      · rename_i left
        exact ⟨_, setTask_self found _, .waits left, id⟩
      · rename_i answer
        exact ⟨_, setTask_self (w := (w.clearTimers t).release t) found _, .answers answer,
          fun _ => trivial⟩
  | locking limit token =>
      have tasks := w.acquire_tasks t
      have terms := w.acquire_terms t
      have head := head_of_acquire (w := w) (t := t)
      simp only [actHydration]
      split
      all_goals
        rename_i w₁ answered
        rw [answered] at tasks terms head
        have found₁ : w₁.tasks[t]? = some (.hydration (.locking limit token)) := tasks ▸ found
      · exact ⟨_, found₁, .stays _ _, fun _ => trivial⟩
      · split
        · exact ⟨_, setTask_self (w := w₁.release t) found₁ _, .misses limit token,
            fun _ => trivial⟩
        · rename_i r registered
          have there : w.kept = some r := (congrArg Terms.kept terms).symm.trans registered
          refine ⟨_, setTask_self (w := { w₁ with kept := some { r with pending := [] } }) found₁ _,
            .seizes limit _ token ?_, fun _ => head rfl⟩
          simp only [Engine.seizes, found, answered, if_true]
          exact there

/-- A call that may take the streams of the registration does. -/
theorem seizes_act {r : Registration} (seized : w.seizes t = some r) :
    ∃ limit due token, (w.act t).1.tasks[t]? =
      some (.hydration (.hydrating r.pending limit due token)) := by
  have registered := kept_of_seizes seized
  unfold Engine.seizes at seized
  split at seized
  · rename_i limit token found
    split at seized
    · rename_i acquired
      have tasks := w.acquire_tasks t
      have terms := w.acquire_terms t
      simp only [act, found, actHydration]
      split
      all_goals
        rename_i w₁ answered
        rw [answered] at tasks terms acquired
      · cases acquired
      · have there : w₁.kept = some r := (congrArg Terms.kept terms).trans registered
        have found₁ : w₁.tasks[t]? = some (.hydration (.locking limit token)) := tasks ▸ found
        simp only [there]
        exact ⟨_, _, _,
          setTask_self (w := { w₁ with kept := some { r with pending := [] } }) found₁ _⟩
    · cases seized
  · cases seized

/-- A call takes a turn, whatever happens to it. -/
theorem callTurn_effect {call : HydrationCall} (acting : actor? x = some t)
    (found : w.tasks[t]? = some (.hydration call)) :
    ∃ call', (w.effect x).tasks[t]? = some (.hydration call') ∧ CallTurn w t x call call' ∧
      (w.Uses t call → (w.effect x).Uses t call') := by
  cases x with
  | move u =>
      cases acting
      exact callTurn_act found
  | elapse time => cases acting
  | command c =>
      cases c with
      | fireCall u =>
          cases acting
          simp only [effect, Engine.apply, fireCall, found]
          refine ⟨_, setTask_self found _, .fires call, fun uses => ?_⟩
          cases call with
          | locking limit token => cases token <;> trivial
          | hydrating pending limit due token => cases token <;> exact uses
          | ended | dropped => trivial
      | dropCall u =>
          cases acting
          simp only [effect, Engine.apply, dropHydration, found]
          cases call with
          | locking | hydrating =>
              exact ⟨_, setTask_self (w := (w.clearTimers t).release t) found _, .drops rfl,
                fun _ => trivial⟩
          | ended | dropped => exact ⟨_, found, .stays _ _, id⟩
      | _ => cases acting

theorem startupTurn_act {state : Startup} (found : w.tasks[t]? = some (.startup state)) :
    ∃ state', (w.act t).1.tasks[t]? = some (.startup state') ∧ StartupTurn w state state' ∧
      w.Settles (w.act t).1 state state' := by
  have ends (w' : Engine) (same : w'.tasks[t]? = w.tasks[t]?)
      (result : Except WatchError Registration) :
      (w'.endStartup t result).tasks[t]? = some (.startup (.ended result)) := by
    rw [endStartup_tasks]
    exact setTask_self (same.trans found) _
  simp only [act, found]
  cases state with
  | ended result =>
      exact ⟨_, setTask_self found _, .stays _, .inl rfl⟩
  | fresh =>
      have opened : Heeds none (fun _ => True) w w.register.1 := heeds_register (by simp) w
      have terms := w.register_terms
      have there := opened.found (by simp) found (by simp)
      simp only [actStartup]
      split
      all_goals
        rename_i w₁ outcome registered
        rw [registered] at there terms
      · have silent := noticeSilence_terms { w₁.settleGate .cancelled with spare := false }
        refine ⟨_, ends _ ?_ _, .fails registered, .inr ?_⟩
        · exact (congrArg (·[t]?) (noticeSilence_tasks
            { w₁.settleGate .cancelled with spare := false })).trans (there.trans found.symm)
        · refine (congrArg Terms.gate silent).trans ?_
          exact congrArg (SyncState.settle · .cancelled) (congrArg Terms.gate terms)
      · have still : w₁.dropSpare.tasks[t]? = some (.startup .fresh) :=
          (congrArg (·[t]?) (noticeSilence_tasks { w₁ with spare := false })).trans there
        exact ⟨_, setTask_self still _, .opens _ registered, trivial⟩
  | hydrating r pending due =>
      simp only [actStartup]
      split
      · rename_i left
        exact ⟨_, setTask_self found _, .waits left, trivial⟩
      · rename_i answer
        obtain ⟨_, ended, -⟩ := endStartup_terms
          { (w.clearTimers t).settleGate .synced with synced := true } t (.ok r)
        exact ⟨_, ends { (w.clearTimers t).settleGate .synced with synced := true } rfl _,
          .answers answer, .inr (congrArg Terms.gate ended)⟩
      · rename_i e answer
        have aborted : Heeds none (fun _ => False) (w.clearTimers t)
            ((w.clearTimers t).abort r.pumps) := heeds_abort _ _
        refine ⟨_, ends (((w.clearTimers t).abort r.pumps).settleGate .cancelled) ?_ _,
          .answers answer, .inr ?_⟩
        · exact (aborted.found (by simp) found (by simp)).trans found.symm
        · exact congrArg (SyncState.settle · .cancelled)
            (congrArg Terms.gate ((w.clearTimers t).abort_terms r.pumps))

/-- Whatever happens, every call takes a turn. -/
theorem callTurn_after (h : w.Watchful) (possible : conduct.Possible past w x)
    {call : HydrationCall} (found : w.tasks[t]? = some (.hydration call)) :
    ∃ call', (conduct.after w x).tasks[t]? = some (.hydration call') ∧ CallTurn w t x call call' ∧
      (w.Uses t call → (conduct.after w x).Uses t call') := by
  by_cases acting : actor? x = some t
  · obtain ⟨s, same⟩ := w.after_eq x
    obtain ⟨call', found', turn, uses⟩ := callTurn_effect acting found
    rw [same]
    refine ⟨call', found', turn, fun used => ?_⟩
    cases call' with
    | hydrating => exact uses used
    | locking | ended | dropped => trivial
  · have passes := passes_after h possible
    refine ⟨call, passes.same t _ acting (by simp) found, .stays _ _, fun used => ?_⟩
    cases call with
    | hydrating => exact passes.holds t acting used
    | locking | ended | dropped => trivial

theorem call_was (h : w.Watchful) (possible : conduct.Possible past w x) {call' : HydrationCall}
    (found' : (conduct.after w x).tasks[t]? = some (.hydration call')) :
    (∃ call, w.tasks[t]? = some (.hydration call) ∧ CallTurn w t x call call' ∧
      (w.Uses t call → (conduct.after w x).Uses t call')) ∨
    ∃ limit token, call' = .locking limit token := by
  obtain ⟨old, there, becomes⟩ | begins := (passes_after h possible).was found'
  · cases old with
    | hydration call =>
        obtain ⟨call'', found'', turn, uses⟩ := callTurn_after h possible there
        cases found'.symm.trans found''
        exact .inl ⟨call, there, turn, uses⟩
    | _ => exact becomes.resembles.elim
  · cases call' with
    | locking limit token => exact .inr ⟨limit, token, rfl⟩
    | hydrating | ended | dropped => cases begins

/-- Whatever happens, startup takes a turn. -/
theorem startupTurn_after (h : w.Watchful) (possible : conduct.Possible past w x)
    {state : Startup} (found : w.tasks[t]? = some (.startup state)) :
    ∃ state', (conduct.after w x).tasks[t]? = some (.startup state') ∧
      StartupTurn w state state' ∧ w.Settles (conduct.after w x) state state' := by
  have stays : w.Settles (conduct.after w x) state state := by
    cases state with
    | ended result => exact .inl rfl
    | fresh | hydrating => trivial
  obtain rfl | still := stays_after h possible found (by simp) (by simp)
  · obtain ⟨s, same⟩ := w.after_eq (.move t)
    rw [same]
    exact startupTurn_act found
  · exact ⟨state, still, .stays _, stays⟩

theorem startup_was (h : w.Watchful) (possible : conduct.Possible past w x) {state' : Startup}
    (found' : (conduct.after w x).tasks[t]? = some (.startup state')) :
    (∃ state, w.tasks[t]? = some (.startup state) ∧ StartupTurn w state state' ∧
      w.Settles (conduct.after w x) state state') ∨ state' = .fresh := by
  obtain ⟨old, there, becomes⟩ | begins := (passes_after h possible).was found'
  · cases old with
    | startup state =>
        obtain ⟨state'', found'', turn⟩ := startupTurn_after h possible there
        cases found'.symm.trans found''
        exact .inl ⟨state, there, turn⟩
    | _ => exact becomes.resembles.elim
  · cases state' with
    | fresh => exact .inr rfl
    | hydrating | ended => cases begins

end Engine

end ResourceWatch
