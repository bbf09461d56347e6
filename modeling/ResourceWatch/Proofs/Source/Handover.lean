import ResourceWatch.Proofs.Source.Turns

/-!
# What the source takes it hands over

Any number of senders send changes, or offer them and wait for room, or give them up. The
source takes them in the order in which they entered the channel, and hands the key of each
over that has one. What it has not taken stands in the channel as long as it runs.

It ends in two cases only: its token has fired, or no change can come any more and it has
taken all there were. When nothing can move and it has not ended, it has taken all there
were as well, so it waits for senders that are still there.
-/

namespace ResourceWatch.SourceWorld

/-- What the source has taken, the first change first. -/
def taken (past : Past SourceWorld Command) : List ChangeEvent :=
  past.flatMap fun (w, h) => takes w h

def entered (past : Past SourceWorld Command) : List ChangeEvent :=
  past.flatMap fun (w, h) => enters w h

/-- Whether the token has fired, as far as a past goes. -/
def Cancelled (past : Past SourceWorld Command) : Prop :=
  ∃ w, (w, Happening.command Command.cancel) ∈ past

variable {w w' w₁ : SourceWorld} {past : Past SourceWorld Command} {h : Happening Command}
  {t u : TaskId} {s : Source} {capacity : Nat}

@[simp] theorem taken_append (past : Past SourceWorld Command) (w : SourceWorld)
    (h : Happening Command) : taken (past ++ [(w, h)]) = taken past ++ takes w h := by
  simp [taken]

@[simp] theorem entered_append (past : Past SourceWorld Command) (w : SourceWorld)
    (h : Happening Command) : entered (past ++ [(w, h)]) = entered past ++ enters w h := by
  simp [entered]

/-- There is one source at most, and as long as it has not ended the channel is open. -/
structure Staffed (w : SourceWorld) : Prop where
  sole : ∀ t u s s', w.sourceAt t = some s → w.sourceAt u = some s' → t = u
  vacant : w.idleSource = true → (∀ t, w.sourceAt t = none) ∧ w.channel.closed = false
  shut : ∀ t s, w.sourceAt t = some s → (w.channel.closed = true ↔ s = .ended)
  empty : w.channel.closed = true → w.channel.buffer = []
  attended : ∀ t s, w.sourceAt t = some s → s ≠ .ended → w.Attended t s

/-- What the source takes and hands over, and what is left. -/
structure Handed (past : Past SourceWorld Command) (w : SourceWorld) : Prop where
  keyed : w.history.keyed = keys (taken past)
  flow : ∃ lost, entered past = taken past ++ (w.channel.buffer ++ lost) ∧
    (w.channel.closed = false → lost = [])

/-- The source ended at some moment of a past, because the token had fired, or because no
change could come and it had taken all that ever entered. -/
def Returned (past : Past SourceWorld Command) (t : TaskId) : Prop :=
  ∃ before w₁ later, past = before ++ (w₁, Happening.move t) :: later ∧
    w₁.sourceAt t = some .running ∧ (Cooperative.run w₁ t).sourceAt t = some .ended ∧
    (Cancelled before ∨ (w₁.hasSenders = false ∧ entered past = taken before))

section Runs

theorem Staffed.start (capacity : Nat) : Staffed { channel := { capacity } } := by
  constructor <;> simp [sourceAt]

theorem eq_of_update (others : ∀ u s, w.sourceAt u = some s → u = t)
    (sources : w'.sourceAt = Function.update w.sourceAt t (some s)) {s' : Source}
    (there : w'.sourceAt u = some s') : u = t ∧ s' = s := by
  rw [sources] at there
  by_cases here : u = t
  · subst here
    rw [Function.update_self] at there
    exact ⟨rfl, (Option.some.inj there).symm⟩
  · rw [Function.update_of_ne here] at there
    exact absurd (others u s' there) here

theorem Staffed.of_only {x : Source} (only : ∀ u s, w.sourceAt u = some s → u = t ∧ s = x)
    (vacant : w.idleSource = false) (shut : w.channel.closed = true ↔ x = .ended)
    (empty : w.channel.closed = true → w.channel.buffer = [])
    (attended : x ≠ .ended → w.Attended t x) : w.Staffed := by
  refine ⟨fun u v s s' hu hv => (only u s hu).1.trans (only v s' hv).1.symm,
    fun idle => by simp [vacant] at idle, ?_, empty, ?_⟩
  · intro u s there
    rw [(only u s there).2]
    exact shut
  · intro u s there live
    obtain ⟨rfl, rfl⟩ := only u s there
    exact attended live

theorem Staffed.effect (h' : w.Staffed) (effect : Effect w h w') : w'.Staffed := by
  have begun {t : TaskId} {s : Source} (there : w.sourceAt t = some s) :
      w.idleSource = false := by
    cases idle : w.idleSource with
    | false => rfl
    | true => simp [(h'.vacant idle).1 t] at there
  cases effect with
  | aside sources idle takes keyed buffer closed attends =>
      refine ⟨sources ▸ h'.sole, by rw [sources, idle, closed]; exact h'.vacant,
        by rw [sources, closed]; exact h'.shut, fun shut => ?_, fun t s there live => ?_⟩
      · rw [closed] at shut
        rw [buffer, h'.empty shut, enters_of_closed shut]
        rfl
      · rw [sources] at there
        exact attends t s there live (h'.attended t s there live)
  | starts t none idle sources takes enters keyed channel attended =>
      obtain ⟨nobody, unclosed⟩ := h'.vacant none
      have only (u : TaskId) (s : Source) (there : w'.sourceAt u = some s) : u = t ∧ s = .fresh :=
        eq_of_update (fun u s there => by simp [nobody u] at there) sources there
      refine .of_only only idle ?_ ?_ fun _ => attended
      · simp [channel, unclosed]
      · simp [channel, unclosed]
  | discards none idle sources takes enters keyed buffer closed =>
      obtain ⟨nobody, -⟩ := h'.vacant none
      have nobody (t : TaskId) : w'.sourceAt t = .none := sources ▸ nobody t
      refine ⟨?_, fun is => by simp [idle] at is, ?_, fun _ => buffer, ?_⟩
      · exact fun t u s s' there => by simp [nobody t] at there
      · exact fun t s there => by simp [nobody t] at there
      · exact fun t s there => by simp [nobody t] at there
  | turns t s there live sources idle enters keyed buffer closed attended =>
      have only (u : TaskId) (s' : Source) (there' : w'.sourceAt u = some s') :
          u = t ∧ s' = .running :=
        eq_of_update (fun u r known => h'.sole u t r s known there) sources there'
      have unclosed : w.channel.closed ≠ true := fun shut => live ((h'.shut t s there).1 shut)
      refine .of_only only (idle.trans (begun there)) ?_ ?_ fun _ => attended
      · simp [closed, unclosed]
      · exact fun shut => absurd (closed.symm.trans shut) unclosed
  | ends t moves there sources idle takes enters keyed buffer closed reason =>
      have only (u : TaskId) (s' : Source) (there' : w'.sourceAt u = some s') :
          u = t ∧ s' = .ended :=
        eq_of_update (fun u r known => h'.sole u t r .running known there) sources there'
      exact .of_only only (idle.trans (begun there)) (by simp [closed]) (fun _ => buffer)
        fun live => absurd rfl live

theorem Handed.start (capacity : Nat) : Handed [] { channel := { capacity } } :=
  ⟨rfl, [], rfl, fun _ => rfl⟩

/-- The channel is emptied; what was in it is lost. -/
theorem Handed.lose (h' : Handed past w) (takes : takes w h = []) (enters : enters w h = [])
    (keyed : w'.history.keyed = w.history.keyed) (buffer : w'.channel.buffer = [])
    (closed : w'.channel.closed = true) : Handed (past ++ [(w, h)]) w' := by
  obtain ⟨lost, flow, -⟩ := h'.flow
  refine ⟨?_, w.channel.buffer ++ lost, ?_, fun unclosed => by simp [closed] at unclosed⟩
  · rw [keyed, taken_append, takes, List.append_nil]
    exact h'.keyed
  · rw [entered_append, taken_append, takes, enters, buffer, List.append_nil, List.append_nil]
    exact flow

theorem Handed.effect (h' : Handed past w) (effect : Effect w h w') :
    Handed (past ++ [(w, h)]) w' := by
  obtain ⟨lost, flow, none_lost⟩ := h'.flow
  cases effect with
  | aside sources idle takes keyed buffer closed attends =>
      refine ⟨?_, lost, ?_, closed ▸ none_lost⟩
      · rw [keyed, taken_append, takes, List.append_nil]
        exact h'.keyed
      · rw [entered_append, taken_append, takes, buffer, flow, List.append_nil]
        cases shut : w.channel.closed with
        | true => simp [enters_of_closed shut h]
        | false => simp [none_lost shut]
  | starts t none idle sources takes enters keyed channel attended =>
      refine ⟨?_, lost, ?_, channel ▸ none_lost⟩
      · rw [keyed, taken_append, takes, List.append_nil]
        exact h'.keyed
      · rw [entered_append, taken_append, takes, enters, channel, List.append_nil,
          List.append_nil]
        exact flow
  | discards none idle sources takes enters keyed buffer closed =>
      exact h'.lose takes enters keyed buffer closed
  | turns t s there live sources idle enters keyed buffer closed attended =>
      refine ⟨?_, lost, ?_, closed ▸ none_lost⟩
      · rw [keyed, taken_append, keys_append, h'.keyed]
      · rw [entered_append, taken_append, enters, flow, buffer]
        simp
  | ends t moves there sources idle takes enters keyed buffer closed reason =>
      exact h'.lose takes enters keyed buffer closed

/-- As long as the source has not ended, what has entered was taken or is in the channel. -/
theorem Handed.entered_eq (h : Handed past w) (unclosed : w.channel.closed = false) :
    entered past = taken past ++ w.channel.buffer := by
  obtain ⟨lost, flow, none_lost⟩ := h.flow
  rw [flow, none_lost unclosed, List.append_nil]

theorem foldl_logged_fired (events : List LogEvent) (w : SourceWorld) :
    (events.foldl (fun w e => w.note (.logged e)) w).fired = w.fired := by
  induction events generalizing w with
  | nil => rfl
  | cons e events ih => exact ih _

theorem act_fired (w : SourceWorld) (t : TaskId) : (w.act t).1.fired = w.fired := by
  unfold act
  split
  · rfl
  · dsimp only
    split <;> exact foldl_logged_fired _ _
  · rfl
  · unfold offer
    split
    · rfl
    · exact noticeSilence_fired _
    · rfl
  · rfl

theorem resolve_fired (w : SourceWorld) (outcome : SyncState) :
    (w.resolve outcome).fired = w.fired := by
  unfold resolve
  split <;> rfl

/-- Only one command fires the token. -/
theorem apply_fired {c : Command} (other : c ≠ .cancel) : (w.apply c).1.fired = w.fired := by
  cases c with
  | cancel => exact absurd rfl other
  | send e =>
      obtain sent | ⟨same, -⟩ := send_cases w e
      · exact congrArg (fun sent => sent.1.fired) sent
      · exact congrArg SourceWorld.fired same
  | giveUp t =>
      have applies : (w.apply (.giveUp t)).1 = w.giveUp t := rfl
      rw [applies, SourceWorld.giveUp]
      split
      · exact noticeSilence_fired _
      · rfl
  | dropSender => exact noticeSilence_fired _
  | markSynced | dropGate => exact resolve_fired w _
  | offer | cloneSender | start | dropSource | wait =>
      unfold apply
      dsimp only
      split <;> rfl

theorem fired_after (w : SourceWorld) (h : Happening Command) :
    (conduct.after w h).fired = true ↔ w.fired = true ∨ h = .command .cancel := by
  cases h with
  | elapse time => simp [Conduct.after, Cooperative.reschedule]
  | move t =>
      have same : (Cooperative.run w t).fired = w.fired := by
        cases acts : w.act t with
        | mk v progress =>
            have kept : v.fired = w.fired := by rw [← act_fired w t, acts]
            cases progress with
            | goesOn => rw [Cooperative.run_of_goesOn acts, kept]
            | rests =>
                rw [Cooperative.run_of_rests acts]
                exact kept
      simp [Conduct.after, same]
  | command c =>
      by_cases fires : c = .cancel
      · subst fires
        simp [Conduct.after, conduct, apply, wakeAll]
      · have same : (conduct.after w (.command c)).fired = w.fired := apply_fired fires
        simp [same, fires]

theorem fired_of_run (run : conduct.Run { channel := { capacity } } past w) :
    w.fired = true ↔ Cancelled past := by
  induction run with
  | start => simp [Cancelled]
  | @next past w h run possible ih =>
      rw [fired_after, ih]
      simp [Cancelled, exists_or, eq_comm]

theorem Returned.append (returned : Returned past t) (nothing : enters w h = []) :
    Returned (past ++ [(w, h)]) t := by
  obtain ⟨before, w₁, later, rfl, was, is, reason⟩ := returned
  refine ⟨before, w₁, later ++ [(w, h)], by simp, was, is, reason.imp_right fun silent => ?_⟩
  rw [entered_append, nothing, List.append_nil]
  exact silent

/-- What holds at every moment of every run: one source at most, which hands over what it
takes, and which had a reason if it has ended. -/
theorem handed_of_run (run : conduct.Run { channel := { capacity } } past w) :
    w.Staffed ∧ Handed past w ∧ ∀ t, w.sourceAt t = some .ended → Returned past t := by
  induction run with
  | start => exact ⟨.start capacity, .start capacity, by simp [sourceAt]⟩
  | @next past w h run possible ih =>
      obtain ⟨staffed, handed, returned⟩ := ih
      have effect := effect_after possible
      refine ⟨staffed.effect effect, handed.effect effect, fun t ended => ?_⟩
      have before (was : w.sourceAt t = some .ended) : Returned (past ++ [(w, h)]) t :=
        (returned t was).append (enters_of_closed ((staffed.shut t _ was).2 rfl) h)
      cases effect with
      | aside sources | discards _ _ sources => exact before (sources ▸ ended)
      | starts u none idle sources | turns u s there live sources =>
          rw [sources, Function.update_apply] at ended
          split at ended
          · simp at ended
          · exact before ended
      | ends u moves there sources idle takes enters keyed buffer closed reason =>
          rw [sources, Function.update_apply] at ended
          split at ended
          · rename_i here
            subst here moves
            have unclosed : w.channel.closed = false := by
              simpa using (staffed.shut t _ there).not.2 (by simp)
            refine ⟨past, w, [], rfl, there, ?_, reason.imp (fired_of_run run).1 ?_⟩
            · exact (congrFun sources t).trans (Function.update_self ..)
            · rintro ⟨empty, silent⟩
              refine ⟨silent, ?_⟩
              rw [entered_append, enters, handed.entered_eq unclosed, empty]
              simp
          · exact before ended

/-- The source hands over, in order, the keys of those of the changes that it takes that
have one. It takes changes in the order in which they entered the channel, and as long as it
has not ended, what has entered and was not taken is still in the channel. If it has ended,
its token had fired, or nobody could send any more and it had taken all that ever entered.
When nothing can move and it has not ended, it waits for a change, having taken all there
were, its token has not fired, and somebody may still send. -/
theorem hands_over_of_run (run : conduct.Run { channel := { capacity } } past w) :
    w.history.keyed = keys (taken past) ∧ taken past <+: entered past ∧
    (∀ t s, w.sourceAt t = some s → s ≠ .ended →
      entered past = taken past ++ w.channel.buffer) ∧
    (∀ t, w.sourceAt t = some .ended → Returned past t) ∧
    (Cooperative.Idle w → ∀ t s, w.sourceAt t = some s → s ≠ .ended →
      s = .running ∧ ¬Cancelled past ∧ w.hasSenders = true ∧ entered past = taken past) := by
  obtain ⟨staffed, handed, returned⟩ := handed_of_run run
  have left (t : TaskId) (s : Source) (there : w.sourceAt t = some s) (live : s ≠ .ended) :
      entered past = taken past ++ w.channel.buffer :=
    handed.entered_eq (by simpa using (staffed.shut t s there).not.2 live)
  refine ⟨handed.keyed, ?_, left, returned, fun idle t s there live => ?_⟩
  · obtain ⟨lost, flow, -⟩ := handed.flow
    exact flow ▸ List.prefix_append _ _
  · obtain ready | ⟨runs, quiet⟩ := staffed.attended t s there live
    · exact absurd ready (idle.not_ready t)
    · refine ⟨runs, fun cancelled => ?_, quiet.senders, ?_⟩
      · simpa [quiet.unfired] using (fired_of_run run).2 cancelled
      · rw [left t s there live, quiet.empty, List.append_nil]

end Runs

/-- A change to an object, of unknown kind if none is given. -/
def change (kind : Option Gvk) (name : String) : ChangeEvent :=
  ⟨⟨kind, "kube-system", name, none, none⟩, "op", .added⟩

/-- Three offer changes to a channel for one, the second change being of unknown kind. Those
who wait for room are let in one by one, and the last one is when nobody else may send. -/
def relay : List (Happening Command) :=
  [.command .cloneSender, .command (.offer (change Engine.configMap "a")),
    .command (.offer (change none "b")), .command (.offer (change Engine.configMap "c")), .move 0,
    .move 1, .move 2, .command .start, .move 3, .move 3, .command .dropSender, .move 1, .move 3,
    .move 3, .command .dropSender, .move 2, .move 3, .move 3]

theorem hands_over_of_relay :
    ∃ past w, conduct.Run { channel := { capacity := 1 } } past w ∧
      w.sourceAt 3 = some .ended ∧ ¬Cancelled past ∧
      w.history.keyed = [ObjectKey.encode ⟨Engine.configMap, "kube-system", "a"⟩,
        ObjectKey.encode ⟨Engine.configMap, "kube-system", "c"⟩] ∧
      (taken past).map (·.reference.name) = ["a", "b", "c"] ∧ Returned past 3 := by
  have begun : conduct.Run { channel := { capacity := 1 } } [] { channel := { capacity := 1 } } :=
    .start
  have run := begun.follow relay (by decide +kernel)
  have took : taken ((conduct.follow [] { channel := { capacity := 1 } } relay).get
      (by decide +kernel)).1 = [change Engine.configMap "a", change none "b",
        change Engine.configMap "c"] := by
    decide +kernel
  have ended : ((conduct.follow [] { channel := { capacity := 1 } } relay).get
      (by decide +kernel)).2.sourceAt 3 = some .ended := by
    decide +kernel
  have unfired : ((conduct.follow [] { channel := { capacity := 1 } } relay).get
      (by decide +kernel)).2.fired = false := by
    decide +kernel
  obtain ⟨keyed, -, -, returned, -⟩ := hands_over_of_run run
  refine ⟨_, _, run, ended, ?_, ?_, ?_, returned 3 ended⟩
  · exact fun cancelled => by simpa [unfired] using (fired_of_run run).2 cancelled
  · rw [keyed, took]
    rfl
  · rw [took]
    rfl

end ResourceWatch.SourceWorld
