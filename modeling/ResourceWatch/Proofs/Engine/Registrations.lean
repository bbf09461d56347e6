import ResourceWatch.Proofs.Engine.Verdicts

/-!
# What a call says that has waited for streams

Only the first call on a registration waits. It takes the streams with it, and nobody puts
them back: a call that comes later finds none to wait for and is answered at once. So an
answered call says that every stream has told, unless an earlier call that had taken
streams has failed or was given up.

Every stream of a kept registration is accounted for: its pump has told, or it is still
with the registration, or a call has taken it. What a call has taken it waits for, until
the pump has told or the call has failed. No two calls wait at the same time, because the
one that waits uses the registration alone.
-/

namespace ResourceWatch

/-- The streams that a call has still to wait for, if it has taken any and has not
failed. -/
def HydrationCall.left? : HydrationCall → Option (List (Gvk × TaskId))
  | .hydrating pending .. => some pending
  | .ended (some (.ok ())) => some []
  | _ => none

/-- Whether a call has failed or was given up. -/
def HydrationCall.hasFailed : HydrationCall → Bool
  | .ended (some (.error _)) | .dropped => true
  | _ => false

/-- The streams that startup has opened, and those that it has still to wait for. -/
def Startup.left? : Startup → Option (Registration × List (Gvk × TaskId))
  | .hydrating r pending _ => some (r, pending)
  | .ended (.ok r) => some (r, [])
  | _ => none

namespace Engine

variable {options : EngineOptions} {plan : WatchPlan} {w w' : Engine} {t u v : TaskId}
  {x : Happening Command} {past : Past Engine Command} {pending rest : List (Gvk × TaskId)}

/-- Those that are waited for no more have told. -/
def Covers (w : Engine) (pending rest : List (Gvk × TaskId)) : Prop :=
  ∀ v ∈ pending.map (·.2), w.Told v ∨ v ∈ rest.map (·.2)

theorem Covers.refl (w : Engine) (pending : List (Gvk × TaskId)) : w.Covers pending pending :=
  fun _ => .inr

theorem covers_of_hydrate (h : w.hydrate pending = .ok rest) : w.Covers pending rest := by
  obtain ⟨front, rfl, told⟩ := split_of_hydrate h
  intro v member
  rw [List.map_append, List.mem_append] at member
  refine member.imp (fun first => ?_) id
  obtain ⟨entry, there, rfl⟩ := List.mem_map.1 first
  exact told entry there

/-- The streams that an opened registration leaves to be waited for are all of them. -/
theorem pumps_of_openStreams {r r' : Registration} {watches : List PlannedWatch}
    (all : r.pumps = r.pending.map (·.2)) (opened : w.openStreams r watches = (w', .ok r')) :
    r'.pumps = r'.pending.map (·.2) := by
  induction watches generalizing w r with
  | nil =>
      cases opened
      exact all
  | cons watch watches ih =>
      rw [openStreams] at opened
      split at opened
      · cases opened
      · dsimp only at opened
        split at opened
        · cases opened
        · exact ih (by simp [all]) opened

theorem pumps_of_register {r : Registration} (registered : w.register = (w', .ok r)) :
    r.pumps = r.pending.map (·.2) := by
  rw [register] at registered
  split at registered
  · rename_i w₁ r₁ opened
    cases registered
    exact pumps_of_openStreams (r := {}) rfl opened
  · cases registered

/-- What a call has still to wait for is left of what it had, or is what it takes. -/
theorem CallTurn.left {call call' : HydrationCall} (turn : CallTurn w t x call call')
    (left : call'.left? = some rest) :
    (∃ pending, call.left? = some pending ∧ w.Covers pending rest) ∨
      x = .move t ∧ ∃ r, w.seizes t = some r ∧ rest = r.pending := by
  cases turn with
  | stays => exact .inl ⟨rest, left, .refl w rest⟩
  | fires =>
      refine .inl ⟨rest, ?_, .refl w rest⟩
      cases call with
      | locking limit token => cases token <;> cases left
      | hydrating pending limit due token => cases token <;> exact left
      | ended | dropped => exact left
  | drops | misses => cases left
  | seizes limit due token seized =>
      cases left
      exact .inr ⟨rfl, _, seized, rfl⟩
  | waits waits =>
      cases left
      exact .inl ⟨_, rfl, covers_of_hydrate (hydration_eq_ok.1 waits).2.1⟩
  | @answers pending limit due token result answer =>
      cases result with
      | ok =>
          cases left
          exact .inl ⟨pending, rfl, covers_of_hydrate (hydrate_of_answered answer)⟩
      | error => cases left

theorem CallTurn.fails {call call' : HydrationCall} (turn : CallTurn w t x call call')
    (failed : call.hasFailed = true) : call'.hasFailed = true := by
  cases turn with
  | stays => exact failed
  | fires =>
      cases call with
      | locking | hydrating => cases failed
      | ended | dropped => exact failed
  | drops => rfl
  | misses | seizes | waits | answers => cases failed

/-- A call that has taken streams goes on to wait for them, or fails. -/
theorem CallTurn.stands {call call' : HydrationCall} (turn : CallTurn w t x call call')
    (left : call.left? = some pending) :
    call'.hasFailed = true ∨ ∃ rest, call'.left? = some rest ∧ w.Covers pending rest := by
  cases turn with
  | stays => exact .inr ⟨pending, left, .refl w pending⟩
  | fires =>
      refine .inr ⟨pending, ?_, .refl w pending⟩
      cases call with
      | locking | dropped => cases left
      | hydrating pending' limit due token => cases token <;> exact left
      | ended => exact left
  | drops => exact .inl rfl
  | misses | seizes => cases left
  | waits waits =>
      cases left
      exact .inr ⟨_, rfl, covers_of_hydrate (hydration_eq_ok.1 waits).2.1⟩
  | @answers pending' limit due token result answer =>
      cases result with
      | error => exact .inl rfl
      | ok =>
          cases left
          exact .inr ⟨[], rfl, covers_of_hydrate (hydrate_of_answered answer)⟩

theorem StartupTurn.left {state state' : Startup} {r : Registration}
    (turn : StartupTurn w state state') (left : state'.left? = some (r, rest)) :
    (∃ pending, state.left? = some (r, pending) ∧ w.Covers pending rest) ∨
      ∃ w₁ r₁, w.register = (w₁, .ok r₁) ∧ r.pumps = r₁.pumps ∧ rest = r₁.pending := by
  cases turn with
  | stays => exact .inl ⟨rest, left, .refl w rest⟩
  | fails => cases left
  | opens due registered =>
      cases left
      exact .inr ⟨_, _, registered, rfl, rfl⟩
  | waits waits =>
      cases left
      exact .inl ⟨_, rfl, covers_of_hydrate (hydration_eq_ok.1 waits).2.1⟩
  | @answers r' pending due result answer =>
      cases result with
      | ok =>
          cases left
          exact .inl ⟨pending, rfl, covers_of_hydrate (hydrate_of_answered answer)⟩
      | error => cases left

/-- A call has taken the stream of a pump with it. -/
def Took (past : Past Engine Command) (u v : TaskId) : Prop :=
  ∃ before w₁ later r, past = before ++ (w₁, .move u) :: later ∧ w₁.seizes u = some r ∧
    v ∈ r.pending.map (·.2)

/-- The stream of a pump was taken by a call that has failed or was given up. -/
def Forfeited (past : Past Engine Command) (w : Engine) (v : TaskId) : Prop :=
  ∃ u call, Took past u v ∧ w.tasks[u]? = some (.hydration call) ∧ call.hasFailed = true

theorem Took.append (h : Took past u v) : Took (past ++ [(w, x)]) u v := by
  obtain ⟨before, w₁, later, r, rfl, rest⟩ := h
  exact ⟨before, w₁, later ++ [(w, x)], r, by simp, rest⟩

theorem took_append_iff :
    Took (past ++ [(w, x)]) u v ↔
      Took past u v ∨ x = .move u ∧ ∃ r, w.seizes u = some r ∧ v ∈ r.pending.map (·.2) := by
  constructor
  · rintro ⟨before, w₁, later, r, split, seized, member⟩
    obtain ⟨rfl, same, rfl⟩ | ⟨later', rfl, rfl⟩ := append_singleton_eq_append_cons.1 split
    · cases same
      exact .inr ⟨rfl, r, seized, member⟩
    · exact .inl ⟨before, w₁, later', r, rfl, seized, member⟩
  · rintro (before | ⟨rfl, r, seized, member⟩)
    · exact before.append
    · exact ⟨past, w, [], r, rfl, seized, member⟩

structure Accounted (past : Past Engine Command) (w : Engine) : Prop where
  /-- A pump of the kept registration has told, or its stream is there, or was taken. -/
  kept : ∀ r, w.kept = some r → ∀ v ∈ r.pumps,
    w.Told v ∨ v ∈ r.pending.map (·.2) ∨ ∃ u, Took past u v
  /-- What a call has taken it waits for, until the pump has told or the call has
  failed. -/
  took : ∀ u v, Took past u v → ∃ call, w.tasks[u]? = some (.hydration call) ∧
    (call.hasFailed = true ∨
      ∃ pending, call.left? = some pending ∧ (w.Told v ∨ v ∈ pending.map (·.2)))
  /-- Whoever waits uses the registration. -/
  uses : ∀ u call, w.tasks[u]? = some (.hydration call) → w.Uses u call
  /-- A call that waits, or that was answered, has once taken the streams of a
  registration. Those that it does not wait for have told or were forfeited by then. -/
  calls : ∀ u call pending, w.tasks[u]? = some (.hydration call) → call.left? = some pending →
    ∃ before w₁ later r, past = before ++ (w₁, .move u) :: later ∧ w₁.seizes u = some r ∧
      ∀ v ∈ r.pumps, w.Told v ∨ v ∈ pending.map (·.2) ∨ Forfeited before w₁ v
  /-- Startup waits for all its streams. -/
  startups : ∀ (u : TaskId) state r pending, w.tasks[u]? = some (.startup state) →
    state.left? = some (r, pending) → ∀ v ∈ r.pumps, w.Told v ∨ v ∈ pending.map (·.2)

/-- When a call takes the streams, nobody else waits for any: what is missing was
forfeited. -/
theorem Accounted.seizes {r : Registration} (h : Accounted past w) (seized : w.seizes t = some r)
    (member : v ∈ r.pumps) : w.Told v ∨ v ∈ r.pending.map (·.2) ∨ Forfeited past w v := by
  obtain told | there | ⟨u, took⟩ := h.kept r (kept_of_seizes seized) v member
  · exact .inl told
  · exact .inr (.inl there)
  · obtain ⟨call, found, failed | ⟨pending, left, covered⟩⟩ := h.took u v took
    · exact .inr (.inr ⟨u, call, took, found, failed⟩)
    · cases call with
      | locking | dropped => cases left
      | ended result =>
          have none : pending = [] := by
            match result, left with
            | some (.ok ()), rfl => rfl
          subst none
          exact .inl (covered.resolve_right (by simp))
      | hydrating pending' limit due token =>
          -- two calls would use the registration at the same time
          have first : Heeds none (fun _ => False) w (w.acquire t).1 := heeds_acquire w t
          have holds := first.holds u (by simp) (h.uses u _ found)
          unfold Engine.seizes at seized
          split at seized
          · rename_i asks
            split at seized
            · rename_i acquired
              obtain rfl := Option.some.inj ((head_of_acquire acquired).symm.trans holds)
              cases asks.symm.trans found
            · cases seized
          · cases seized

/-- Whatever happens, every stream is accounted for afterwards. -/
theorem Accounted.after (h : Accounted past w) (watchful : w.Watchful)
    (possible : conduct.Possible past w x) :
    Accounted (past ++ [(w, x)]) (conduct.after w x) := by
  have evolves := (passes_after watchful possible).evolves
  have told {v : TaskId} (before : w.Told v) : (conduct.after w x).Told v := before.evolves evolves
  refine ⟨?_, ?_, ?_, ?_, ?_⟩
  · intro r keeps v member
    obtain ⟨s, same⟩ := w.after_eq x
    have effect : (w.effect x).kept = some r := (congrArg Engine.kept same).symm.trans keeps
    obtain before | ⟨t, r', rfl, seized, rfl⟩ | ⟨t, pending, due, rfl, found, hydrated⟩ |
      ⟨rfl, w₁, registered, -⟩ := kept_effect effect
    · exact (h.kept r before v member).imp told (.imp_right fun ⟨u, took⟩ => ⟨u, took.append⟩)
    · obtain now | there | ⟨u, took⟩ := h.kept r' (kept_of_seizes seized) v member
      · exact .inl (told now)
      · exact .inr (.inr ⟨t, took_append_iff.2 (.inr ⟨rfl, r', seized, there⟩)⟩)
      · exact .inr (.inr ⟨u, took.append⟩)
    · obtain now | waits := h.startups t _ r pending found rfl v member
      · exact .inl (told now)
      · exact .inl (told ((covers_of_hydrate hydrated v waits).resolve_right (by simp)))
    · exact .inr (.inl (pumps_of_register registered ▸ member))
  · intro u v took
    obtain before | ⟨rfl, r, seized, member⟩ := took_append_iff.1 took
    · obtain ⟨call, found, stands⟩ := h.took u v before
      obtain ⟨call', found', turn, -⟩ := callTurn_after watchful possible found
      refine ⟨call', found', ?_⟩
      obtain failed | ⟨pending, left, covered⟩ := stands
      · exact .inl (turn.fails failed)
      · refine (turn.stands left).imp_right fun ⟨rest, left', covers⟩ => ⟨rest, left', ?_⟩
        obtain now | waits := covered
        · exact .inl (told now)
        · exact (covers v waits).imp_left told
    · obtain ⟨s, same⟩ := w.after_eq (.move u)
      obtain ⟨limit, due, token, found⟩ := seizes_act seized
      rw [same]
      exact ⟨_, found, .inr ⟨_, rfl, .inr member⟩⟩
  · intro u call' found'
    obtain ⟨call, found, -, uses⟩ | ⟨limit, token, rfl⟩ := call_was watchful possible found'
    · exact uses (h.uses u call found)
    · trivial
  · intro u call' rest found' left
    obtain ⟨call, found, turn, -⟩ | ⟨limit, token, rfl⟩ := call_was watchful possible found'
    · obtain ⟨pending, left', covers⟩ | ⟨rfl, r, seized, rfl⟩ := turn.left left
      · obtain ⟨before, w₁, later, r, rfl, seized, all⟩ := h.calls u call pending found left'
        refine ⟨before, w₁, later ++ [(w, x)], r, by simp, seized, fun v member => ?_⟩
        obtain now | waits | forfeited := all v member
        · exact .inl (told now)
        · exact (covers v waits).imp told .inl
        · exact .inr (.inr forfeited)
      · exact ⟨past, w, [], r, rfl, seized, fun v member => (h.seizes seized member).imp_left told⟩
    · cases left
  · intro u state' r rest found' left v member
    obtain ⟨state, found, turn, -⟩ | rfl := startup_was watchful possible found'
    · obtain ⟨pending, left', covers⟩ | ⟨w₁, r₁, registered, same, rfl⟩ := turn.left left
      · obtain now | waits := h.startups u state r pending found left' v member
        · exact .inl (told now)
        · exact (covers v waits).imp_left told
      · exact .inr (pumps_of_register registered ▸ same ▸ member)
    · cases left

theorem accounted_of_run (run : conduct.Run (ofPlan options plan) past w) : Accounted past w := by
  induction run with
  | start =>
      refine ⟨by simp [ofPlan], ?_, by simp [ofPlan], by simp [ofPlan], by simp [ofPlan]⟩
      rintro u v ⟨before, w₁, later, r, split, -⟩
      simp at split
  | next run possible ih => exact ih.after (watchful_of_run run) possible

/-- Startup has opened its streams only when every pump has told. A call is answered well
only when every pump of the registration whose streams it took has told, unless its stream
was taken by an earlier call, which had failed by then or was given up. -/
theorem told_of_answered (run : conduct.Run (ofPlan options plan) past w) (t : TaskId) :
    (∀ r, w.tasks[t]? = some (.startup (.ended (.ok r))) → ∀ v ∈ r.pumps, w.Told v) ∧
    (w.tasks[t]? = some (.hydration (.ended (some (.ok ())))) →
      ∃ before w₁ later r, past = before ++ (w₁, .move t) :: later ∧ w₁.seizes t = some r ∧
        ∀ v ∈ r.pumps, w.Told v ∨ Forfeited before w₁ v) := by
  have accounted := accounted_of_run run
  refine ⟨fun r found v member => ?_, fun found => ?_⟩
  · exact (accounted.startups t _ r [] found rfl v member).resolve_right (by simp)
  · obtain ⟨before, w₁, later, r, split, seized, all⟩ := accounted.calls t _ [] found rfl
    refine ⟨before, w₁, later, r, split, seized, fun v member => ?_⟩
    exact (all v member).imp_right fun rest => rest.resolve_left (by simp)

/-- A stream is opened, and a call waits for it, which takes it along. -/
def takenAlong : List (Happening Command) :=
  .command .register :: .command (.waitHydrated (.ofSeconds 1)) :: [0, 1, 1].map .move

/-- A call is answered after the pump has told. -/
theorem told_of_takenAlong :
    ∃ past w, conduct.Run (ofPlan slowOptions everyConfigMap) past w ∧
      w.tasks[1]? = some (.hydration (.ended (some (.ok ())))) ∧
      ∃ before w₁ later r, past = before ++ (w₁, .move 1) :: later ∧ w₁.seizes 1 = some r ∧
        ∀ v ∈ r.pumps, w.Told v ∨ Forfeited before w₁ v := by
  have begun : conduct.Run (ofPlan slowOptions everyConfigMap) []
      (ofPlan slowOptions everyConfigMap) := .start
  obtain ⟨past, w, run, answered, unstarted⟩ : ∃ past w,
      conduct.Run (ofPlan slowOptions everyConfigMap) past w ∧
        w.verdict? 1 = some (.ok ()) ∧ (w.startupResult? 1).isNone = true :=
    ⟨_, _, begun.follow (takenAlong ++
      [.command (.arrive configMap (.item (.ok .hydrated))), .move 0, .move 1])
      (by decide +kernel), by decide +kernel⟩
  obtain ⟨task, found, waited⟩ := Option.bind_eq_some_iff.1 answered
  obtain rfl : task = .hydration (.ended (some (.ok ()))) := by
    cases task with
    | startup state =>
        cases state <;> simp [startupResult?, found, EngineTask.waited?] at unstarted waited
    | hydration call =>
        cases call <;> cases waited
        rfl
    | _ => cases waited
  exact ⟨past, w, run, found, (told_of_answered run 1).2 found⟩

/-- A call fails because of the time, and the next one is answered at once, although the
pump has told nothing. -/
theorem not_told_of_takenAlong :
    ∃ before w₁ w, conduct.Run (ofPlan slowOptions everyConfigMap)
        (before ++ [(w₁, .move 2), (conduct.after w₁ (.move 2), .move 2)]) w ∧
      w.verdict? 1 = some (.error (.syncTimeout (.ofSeconds 1))) ∧
      w.verdict? 2 = some (.ok ()) ∧
      (∃ r, w₁.seizes 2 = some r ∧ 0 ∈ r.pumps) ∧ ¬ w.Told 0 := by
  have begun : conduct.Run (ofPlan slowOptions everyConfigMap) []
      (ofPlan slowOptions everyConfigMap) := .start
  obtain ⟨before, w₁, run, ready, again, failed, answered, seized, untold⟩ :
      ∃ before w₁, conduct.Run (ofPlan slowOptions everyConfigMap) before w₁ ∧
        2 ∈ w₁.shop.schedule.ready ∧ 2 ∈ (conduct.after w₁ (.move 2)).shop.schedule.ready ∧
        (conduct.after (conduct.after w₁ (.move 2)) (.move 2)).verdict? 1 =
          some (.error (.syncTimeout (.ofSeconds 1))) ∧
        (conduct.after (conduct.after w₁ (.move 2)) (.move 2)).verdict? 2 = some (.ok ()) ∧
        (w₁.seizes 2).any (fun r => r.pumps.contains 0) = true ∧
        ((conduct.after (conduct.after w₁ (.move 2)) (.move 2)).pump? 0).any (·.hydrated) =
          false :=
    ⟨_, _, begun.follow (takenAlong ++
      [.elapse 1000, .move 1, .command (.waitHydrated (.ofSeconds 1))])
      (by decide +kernel), by decide +kernel⟩
  have last := (run.next (h := .move 2) ready).next (h := .move 2) again
  rw [List.append_assoc] at last
  refine ⟨before, w₁, _, last, failed, answered, ?_, ?_⟩
  · obtain ⟨r, same, member⟩ := (Option.any_eq_true _ _).1 seized
    exact ⟨r, same, by simpa using member⟩
  · rintro ⟨q, found, hydrated⟩
    simp [pump?, found, hydrated] at untold

end Engine

end ResourceWatch
