import ResourceWatch.Proofs.Runs
import ResourceWatch.Sync.World

/-!
# Whoever waits for the gate is told the truth, and in time

A gate is used once at most, and every use ends with letting go of it. Tokens fire, and
others begin to wait, at any time before or after. Whatever the order, the first use of
the gate decides what it tells, and nothing that comes later changes it.

Somebody who waits is told something at one moment, and what they are told is read off
what happened before it. Nobody misses that moment: whoever could be told something is
ready, so in a world in which nobody is, all who still wait wait for a gate that nothing
has settled, under a token that has not fired.
-/

namespace ResourceWatch.GateWorld

/-- What the gate is settled to by a command that uses it or lets go of it. -/
def Command.outcome? : Command → Option SyncState
  | .markSynced => some .synced
  | .cancel | .drop => some .cancelled
  | .fireToken _ | .waitUnder _ | .look => none

def conduct : Conduct GateWorld Command where
  apply := apply
  allows _ _ := true

def commands (past : Past GateWorld Command) : List Command :=
  past.filterMap fun
    | (_, .command c) => some c
    | _ => none

/-- What the first command of a past that settles the gate settles it to. -/
def outcome (past : Past GateWorld Command) : SyncState :=
  ((commands past).findSome? Command.outcome?).getD .pending

variable {w w' w₁ : GateWorld} {past before later : Past GateWorld Command} {t : TaskId}
  {waiter : GateWaiter} {c : Command}

theorem commands_append (past more : Past GateWorld Command) :
    commands (past ++ more) = commands past ++ commands more := List.filterMap_append

/-- Only commands say what the gate tells. -/
theorem commands_quiet {h : Happening Command} (quiet : ∀ c, h ≠ .command c) :
    commands (past ++ [(w, h)]) = commands past := by
  cases h with
  | command c => exact absurd rfl (quiet c)
  | move t => simp [commands]
  | elapse time => simp [commands]

theorem outcome_quiet {h : Happening Command} (quiet : ∀ c, h ≠ .command c) :
    outcome (past ++ [(w, h)]) = outcome past := by
  rw [outcome, commands_quiet quiet]
  rfl

theorem Command.outcome?_ne_pending {c : Command} : c.outcome? ≠ some .pending := by
  cases c <;> simp [outcome?]

/-- A settled gate stays as it is, whatever is done, and another one is settled by what
settles gates. -/
theorem outcome_append (past : Past GateWorld Command) (w : GateWorld) (c : Command) :
    outcome (past ++ [(w, Happening.command c)]) =
      (outcome past).settle (c.outcome?.getD .pending) := by
  have last : commands [(w, Happening.command c)] = [c] := rfl
  rw [outcome, commands_append, last, List.findSome?_append, outcome]
  cases first : (commands past).findSome? Command.outcome? with
  | none => cases h : c.outcome? <;> simp [SyncState.settle, h]
  | some s =>
      have settled : s ≠ .pending := by
        rintro rfl
        obtain ⟨d, -, is⟩ := List.exists_of_findSome?_eq_some first
        exact Command.outcome?_ne_pending is
      simp [SyncState.settle, settled]

/-- So what has settled a gate by some moment settles it for good. -/
theorem outcome_of_settled {h : Happening Command} (split : past = before ++ (w₁, h) :: later)
    (settled : outcome before ≠ .pending) : outcome past = outcome before := by
  subst split
  unfold outcome at settled ⊢
  rw [commands_append, List.findSome?_append]
  cases first : (commands before).findSome? Command.outcome? with
  | none => simp [first] at settled
  | some s => rfl

/-- Those who still wait under a token that matters are made ready, and nobody else. -/
theorem mem_wakeWaiting {matters : Nat → Bool} :
    t ∈ (w.wakeWaiting matters).schedule.ready ↔ t ∈ w.schedule.ready ∨
      ∃ waiter, w.tasks[t]? = some waiter ∧ waiter.answer = none ∧
        matters waiter.token = true := by
  rw [wakeWaiting, Schedule.mem_wakeAll, List.mem_filter, List.mem_range]
  refine or_congr Iff.rfl ⟨?_, ?_⟩
  · rintro ⟨-, waits⟩
    obtain ⟨waiter, there, waits⟩ := (Option.any_eq_true _ _).1 waits
    simp only [Bool.and_eq_true, Option.isNone_iff_eq_none] at waits
    exact ⟨waiter, there, waits⟩
  · rintro ⟨waiter, there, waits, matter⟩
    refine ⟨(List.getElem?_eq_some_iff.1 there).1, ?_⟩
    simp [there, waits, matter]

@[simp] theorem settle_state (w : GateWorld) (s : SyncState) :
    (w.settle s).state = w.state.settle s := by
  unfold settle SyncState.settle
  split <;> rename_i now
  · rfl
  · rfl

@[simp] theorem settle_tasks (w : GateWorld) (s : SyncState) :
    (w.settle s).tasks = w.tasks := by
  unfold settle
  split <;> rfl

@[simp] theorem settle_fired (w : GateWorld) (s : SyncState) :
    (w.settle s).fired = w.fired := by
  unfold settle
  split <;> rfl

theorem keeps_settle (w : GateWorld) (s : SyncState) :
    w.schedule.Keeps (w.settle s).schedule := by
  unfold settle
  split
  · exact fun t ready => mem_wakeWaiting.2 (.inl ready)
  · exact .refl _

/-- Settling a gate that is not settled makes everybody ready who waits. -/
theorem ready_of_settle (s : SyncState) (pending : w.state = .pending)
    (there : w.tasks[t]? = some waiter) (waits : waiter.answer = none) :
    t ∈ (w.settle s).schedule.ready := by
  rw [settle, if_pos pending]
  exact mem_wakeWaiting.2 (.inr ⟨waiter, there, waits, rfl⟩)

/-- Somebody is told something by a move of a past, and never anything else. -/
def Told (past : Past GateWorld Command) (t : TaskId) (waiter : GateWaiter) : Prop :=
  ∃ before w₁ later, past = before ++ (w₁, Happening.move t) :: later ∧
    w₁.tasks[t]? = some { token := waiter.token } ∧
    (Cooperative.run w₁ t).tasks[t]? = some waiter

theorem Told.append (told : Told past t waiter) (more : Past GateWorld Command) :
    Told (past ++ more) t waiter := by
  obtain ⟨before, w₁, later, rfl, was, is⟩ := told
  exact ⟨before, w₁, later ++ more, by simp, was, is⟩

/-- The world says what happened: the gate, the tokens, and what everybody was told.
Whoever has not been told anything is ready, or there is nothing to tell. -/
structure Sound (past : Past GateWorld Command) (w : GateWorld) : Prop where
  state : w.state = outcome past
  /-- A gate that is used up is settled. -/
  used : w.held = false → w.state ≠ .pending
  fired : ∀ token, token ∈ w.fired ↔ Command.fireToken token ∈ commands past
  told : ∀ t waiter, w.tasks[t]? = some waiter → waiter.answer ≠ none → Told past t waiter
  attended : ∀ t waiter, w.tasks[t]? = some waiter → waiter.answer = none →
    t ∈ w.schedule.ready ∨ (w.state = .pending ∧ waiter.token ∉ w.fired)

theorem Sound.start : Sound [] {} :=
  ⟨rfl, by simp, by simp [commands], by simp, by simp⟩

/-- Who was there before a move is who was there after it, and looks at the gate if it is
their turn. -/
theorem getElem?_run (w : GateWorld) (t u : TaskId) :
    (Cooperative.run w t).tasks[u]? =
      (w.tasks[u]?).map fun waiter => if t = u then w.look waiter else waiter := by
  have moved : (Cooperative.run w t).tasks = w.tasks.modify t w.look := rfl
  rw [moved, List.getElem?_modify]
  rfl

theorem look_answer (w : GateWorld) (waits : waiter.answer = none) :
    (w.look waiter).answer = none ↔ w.state = .pending ∧ waiter.token ∉ w.fired := by
  cases state : w.state <;> by_cases fired : waiter.token ∈ w.fired <;>
    simp [look, waits, SyncState.answer?, state, fired]

theorem Sound.move (h : Sound past w) (t : TaskId) :
    Sound (past ++ [(w, Happening.move t)]) (Cooperative.run w t) := by
  have same : commands (past ++ [(w, Happening.move t)]) = commands past :=
    commands_quiet (by simp)
  refine ⟨h.state.trans (outcome_quiet (by simp)).symm, h.used,
    fun token => same ▸ h.fired token, ?_, ?_⟩
  · intro u waiter there told
    rw [getElem?_run] at there
    obtain ⟨was, found, turned⟩ := Option.map_eq_some_iff.1 there
    by_cases here : t = u
    · subst here
      rw [if_pos rfl] at turned
      cases waits : was.answer with
      | none =>
          have waiting : was = { token := waiter.token } := by
            rw [← turned, ← waits]
            rfl
          exact ⟨past, w, [], rfl, waiting ▸ found, by rw [getElem?_run, found]; simp [turned]⟩
      | some answer =>
          have stays : waiter = was := by
            rw [← turned, look, waits]
            exact congrArg (GateWaiter.mk was.token) waits.symm
          exact (h.told t waiter (stays ▸ found) told).append _
    · rw [if_neg here] at turned
      exact (h.told u waiter (turned ▸ found) told).append _
  · intro u waiter there waits
    rw [getElem?_run] at there
    obtain ⟨was, found, turned⟩ := Option.map_eq_some_iff.1 there
    by_cases here : t = u
    · subst here
      rw [if_pos rfl] at turned
      have waited : was.answer = none := by
        cases told : was.answer with
        | none => rfl
        | some answer => simp [← turned, look, told] at waits
      have nothing := (look_answer w waited).1 (turned ▸ waits)
      exact .inr (turned ▸ nothing)
    · rw [if_neg here] at turned
      subst turned
      exact (h.attended u was found waits).imp
        (fun ready => Schedule.mem_rest_of_ne ready (Ne.symm here)) id

/-- Using the gate, or letting go of it, settles it as the first such command would. -/
theorem Sound.use (h : Sound past w) {s : SyncState} (uses : c.outcome? = some s) :
    Sound (past ++ [(w, Happening.command c)]) ({ w with held := false }.settle s) := by
  have settles : s ≠ .pending := fun pending => Command.outcome?_ne_pending (pending ▸ uses)
  have unfiring (token : Nat) : c ≠ .fireToken token := by
    rintro rfl
    cases uses
  refine ⟨?_, ?_, ?_, ?_, ?_⟩
  · rw [settle_state, outcome_append, ← h.state, uses]
    rfl
  · intro _
    rw [settle_state, SyncState.settle]
    split
    · exact settles
    · assumption
  · intro token
    have last : commands [(w, Happening.command c)] = [c] := rfl
    rw [settle_fired, commands_append, last, List.mem_append, List.mem_singleton, h.fired,
      or_iff_left (Ne.symm (unfiring token))]
  · intro t waiter there told
    rw [settle_tasks] at there
    exact (h.told t waiter there told).append _
  · intro t waiter there waits
    rw [settle_tasks] at there
    obtain ready | ⟨pending, -⟩ := h.attended t waiter there waits
    · exact .inl (keeps_settle { w with held := false } s t ready)
    · exact .inl (ready_of_settle (w := { w with held := false }) s pending there waits)

/-- A gate that is used up is settled, so using it again is letting go of it again. -/
theorem Sound.resolve_eq (h : Sound past w) (s : SyncState) :
    w.resolve s = { w with held := false }.settle s := by
  unfold resolve
  split
  · rfl
  · rename_i free
    have free : w.held = false := by simpa using free
    have same : { w with held := false } = w := by rw [← free]
    rw [same, settle, if_neg (h.used free)]

theorem Sound.command (h : Sound past w) (c : Command) :
    Sound (past ++ [(w, Happening.command c)]) (w.apply c) := by
  have last : commands [(w, Happening.command c)] = [c] := rfl
  have kept (idle : c.outcome? = none) :
      w.state = outcome (past ++ [(w, Happening.command c)]) := by
    rw [outcome_append, idle, ← h.state]
    cases w.state <;> rfl
  have unfired (idle : ∀ token, c ≠ .fireToken token) (token : Nat) :
      Command.fireToken token ∈ commands (past ++ [(w, Happening.command c)]) ↔
        Command.fireToken token ∈ commands past := by
    rw [commands_append, last, List.mem_append, List.mem_singleton,
      or_iff_left (Ne.symm (idle token))]
  cases c with
  | markSynced =>
      have used : w.apply .markSynced = _ := h.resolve_eq .synced
      rw [used]
      exact h.use rfl
  | cancel =>
      have used : w.apply .cancel = _ := h.resolve_eq .cancelled
      rw [used]
      exact h.use rfl
  | drop => exact h.use rfl
  | look =>
      exact ⟨kept rfl, h.used, fun token => (h.fired token).trans (unfired (by simp) token).symm,
        fun t waiter there told => (h.told t waiter there told).append _, h.attended⟩
  | fireToken token =>
      refine ⟨kept rfl, h.used, fun other => ?_,
        fun t waiter there told => (h.told t waiter there told).append _, ?_⟩
      · rw [commands_append, last]
        simpa [apply, wakeWaiting, or_comm] using or_congr (h.fired other) Iff.rfl
      · intro t waiter there waits
        obtain ready | ⟨pending, unfired⟩ := h.attended t waiter there waits
        · exact .inl (mem_wakeWaiting.2 (.inl ready))
        · by_cases own : waiter.token = token
          · exact .inl (mem_wakeWaiting.2 (.inr ⟨waiter, there, waits, by simp [own]⟩))
          · exact .inr ⟨pending, by simpa [apply, wakeWaiting, own] using unfired⟩
  | waitUnder token =>
      refine ⟨kept rfl, h.used,
        fun other => (h.fired other).trans (unfired (by simp) other).symm, ?_, ?_⟩
      · intro t waiter there told
        obtain there | ⟨rfl, rfl⟩ := getElem?_append_singleton.1 there
        · exact (h.told t waiter there told).append _
        · exact absurd rfl told
      · intro t waiter there waits
        obtain there | ⟨rfl, rfl⟩ := getElem?_append_singleton.1 there
        · exact (h.attended t waiter there waits).imp
            (fun ready => Schedule.mem_wake.2 (.inl ready)) id
        · exact .inl (Schedule.mem_wake.2 (.inr rfl))

/-- The world says what happened, at every moment of every run. -/
theorem sound_of_run (run : conduct.Run {} past w) : Sound past w := by
  induction run with
  | start => exact .start
  | @next past w h run possible ih =>
      cases h with
      | move t => exact ih.move t
      | command c => exact ih.command c
      | elapse time =>
          have same : commands (past ++ [(w, Happening.elapse time)]) = commands past :=
            commands_quiet (by simp)
          exact ⟨ih.state.trans (outcome_quiet (by simp)).symm, ih.used,
            fun token => same ▸ ih.fired token,
            fun t waiter there told => (ih.told t waiter there told).append _,
            fun t waiter there waits => (ih.attended t waiter there waits).imp
              (Schedule.keeps_elapse w.schedule time t) id⟩

/-- A gate that says that the first lists are complete was told so. -/
theorem markSynced_of_outcome (synced : outcome past = .synced) :
    Command.markSynced ∈ commands past := by
  rw [outcome] at synced
  cases first : (commands past).findSome? Command.outcome? with
  | none => simp [first] at synced
  | some s =>
      obtain ⟨c, there, is⟩ := List.exists_of_findSome?_eq_some first
      obtain rfl : s = .synced := by simpa [first] using synced
      cases c with
      | markSynced => exact there
      | cancel | drop | fireToken | waitUnder | look => cases is

/-- What somebody is told at some moment of a run. -/
theorem answer_of_move (run : conduct.Run {} before w₁)
    (was : w₁.tasks[t]? = some { token := waiter.token })
    (is : (Cooperative.run w₁ t).tasks[t]? = some waiter) :
    waiter.answer =
      (outcome before).answer? (decide (Command.fireToken waiter.token ∈ commands before)) := by
  have sound := sound_of_run run
  rw [getElem?_run, was, Option.map_some, if_pos rfl] at is
  have fired : w₁.fired.contains waiter.token =
      decide (Command.fireToken waiter.token ∈ commands before) := by
    rw [List.contains_eq_mem]
    exact decide_eq_decide.2 (sound.fired _)
  rw [← sound.state, ← fired]
  exact (congrArg GateWaiter.answer (Option.some.inj is)).symm

/-- Whoever has an answer was told it by one move, and the answer is true of what had
happened by then. -/
theorem told_of_run (run : conduct.Run {} past w) {answer : Except WatchError Unit}
    (there : w.tasks[t]? = some waiter) (is : waiter.answer = some answer) :
    ∃ before w₁ later, past = before ++ (w₁, Happening.move t) :: later ∧
      w₁.tasks[t]? = some { token := waiter.token } ∧
      (Cooperative.run w₁ t).tasks[t]? = some waiter ∧
      (answer = .error .cancelled ↔ Command.fireToken waiter.token ∈ commands before) ∧
      (answer ≠ .error .cancelled →
        (answer = .ok () ∧ Command.markSynced ∈ commands before ∧ outcome before = .synced) ∨
        (answer = .error .syncAborted ∧ outcome before = .cancelled)) := by
  obtain ⟨before, w₁, later, split, was, now⟩ :=
    (sound_of_run run).told t waiter there (by simp [is])
  have answered := answer_of_move (run.split split).1 was now
  rw [is] at answered
  refine ⟨before, w₁, later, split, was, now, ?_⟩
  by_cases fired : Command.fireToken waiter.token ∈ commands before
  · simp_all [SyncState.answer?]
  · have synced : outcome before = .synced → Command.markSynced ∈ commands before :=
      markSynced_of_outcome
    cases state : outcome before <;> simp_all [SyncState.answer?]

/-- The first use of the gate decides what it tells, and once it is settled it never
changes again. Whoever is told something is told it by one move, and that they are
cancelled exactly if their token had fired by then. Otherwise they are told that the first
lists are complete only if the gate had been told so before anything else settled it, and
that startup failed only if it had been cancelled or let go of before. When nobody can
move, those who still wait are those whose token has not fired, at a gate that nothing has
settled. -/
theorem settled_once_of_run (run : conduct.Run {} past w) :
    (w.state = outcome past ∧ ∀ before w₁ h later, past = before ++ (w₁, h) :: later →
      w₁.state ≠ .pending → w.state = w₁.state) ∧
    (∀ (t : TaskId) (waiter : GateWaiter) answer, w.tasks[t]? = some waiter →
      waiter.answer = some answer →
      ∃ before w₁ later, past = before ++ (w₁, Happening.move t) :: later ∧
        w₁.tasks[t]? = some { token := waiter.token } ∧
        (Cooperative.run w₁ t).tasks[t]? = some waiter ∧
        (answer = .error .cancelled ↔ Command.fireToken waiter.token ∈ commands before) ∧
        (answer ≠ .error .cancelled →
          (answer = .ok () ∧ Command.markSynced ∈ commands before ∧ outcome before = .synced) ∨
          (answer = .error .syncAborted ∧ outcome before = .cancelled))) ∧
    (Cooperative.Idle w → ∀ (t : TaskId) (waiter : GateWaiter), w.tasks[t]? = some waiter →
      (waiter.answer = none ↔
        w.state = .pending ∧ Command.fireToken waiter.token ∉ commands past)) := by
  have sound := sound_of_run run
  refine ⟨⟨sound.state, ?_⟩, fun t waiter answer => told_of_run run, ?_⟩
  · intro before w₁ h later split settled
    have earlier := (sound_of_run (run.split split).1).state
    rw [earlier] at settled ⊢
    exact sound.state.trans (outcome_of_settled split settled)
  · intro idle t waiter there
    constructor
    · intro waits
      obtain ready | ⟨pending, unfired⟩ := sound.attended t waiter there waits
      · exact absurd ready (idle.not_ready t)
      · exact ⟨pending, fun fired => unfired ((sound.fired _).2 fired)⟩
    · rintro ⟨pending, unfired⟩
      cases is : waiter.answer with
      | none => rfl
      | some answer =>
          obtain ⟨before, w₁, later, rfl, -, -, cancelled, other⟩ := told_of_run run there is
          have early : Command.fireToken waiter.token ∉ commands before := fun fired =>
            unfired (by simp [commands_append, fired])
          have settled : outcome before ≠ .pending := by
            obtain ⟨-, -, state⟩ | ⟨-, state⟩ := other fun is => early (cancelled.1 is)
            all_goals simp [state]
          rw [sound.state, outcome_of_settled rfl settled] at pending
          exact absurd pending settled

/-- Two wait before the gate is used, each under a token that fires, one of them only when
the gate has been used. Another waits for the use, and two come after the gate is gone. -/
def crossing : List (Happening Command) :=
  [.command (.waitUnder 0), .move 0, .command (.waitUnder 1), .move 1,
    .command (.waitUnder 7), .move 2, .command (.fireToken 0), .move 0,
    .command .markSynced, .command (.fireToken 7), .move 2, .command .drop, .move 1,
    .command (.waitUnder 0), .move 3, .command (.waitUnder 2), .move 4]

theorem settled_once_of_crossing :
    ∃ past w, conduct.Run {} past w ∧ Cooperative.Idle w ∧
      w.answers = [some (.error .cancelled), some (.ok ()), some (.error .cancelled),
        some (.error .cancelled), some (.ok ())] ∧
      w.state = outcome past ∧ outcome past = .synced ∧
      (∃ before w₁ later, past = before ++ (w₁, Happening.move 1) :: later ∧
        Command.markSynced ∈ commands before ∧ Command.fireToken 1 ∉ commands before) ∧
      ∃ before w₁ later, past = before ++ (w₁, Happening.move 2) :: later ∧
        w₁.tasks[2]? = some { token := 7 } ∧ Command.fireToken 7 ∈ commands before := by
  have begun : conduct.Run {} [] {} := .start
  have run := begun.follow crossing (by decide +kernel)
  have ready : ((conduct.follow [] {} crossing).get (by decide +kernel)).2.schedule.ready =
      [] := by
    decide +kernel
  have marked : outcome ((conduct.follow [] {} crossing).get (by decide +kernel)).1 =
      .synced := by
    decide +kernel
  obtain ⟨⟨state, -⟩, told, -⟩ := settled_once_of_run run
  obtain ⟨before, w₁, later, split, -, -, cancelled, other⟩ :=
    told 1 ⟨1, some (.ok ())⟩ (.ok ()) rfl rfl
  obtain ⟨before', w₁', later', split', was', -, cancelled', -⟩ :=
    told 2 ⟨7, some (.error .cancelled)⟩ (.error .cancelled) rfl rfl
  have synced : Command.markSynced ∈ commands before := by
    obtain ⟨-, synced, -⟩ | ⟨aborted, -⟩ := other (by simp)
    · exact synced
    · simp at aborted
  exact ⟨_, _, run, ready, rfl, state, marked,
    ⟨before, w₁, later, split, synced, fun fired => by simpa using cancelled.2 fired⟩,
    before', w₁', later', split', was', cancelled'.1 rfl⟩

end ResourceWatch.GateWorld
