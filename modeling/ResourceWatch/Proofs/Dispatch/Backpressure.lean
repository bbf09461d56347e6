import ResourceWatch.Proofs.Dispatch.Order

/-!
# Nothing is lost at a full channel

The channel of a dispatcher never holds more changes than it may. A call whose change finds
it full waits, and as long as the receiver is there, nothing is lost on the way: what was
received and what still stands in the channel are together the changes of the calls that
reported that they passed one on.

The changes stand there in the order of the calls exactly if no call overtakes another on the
way in. A newcomer does so if it finds room that nobody was promised before a call that was
promised some has used it, as after two changes were received at once. Where room is used
before more is made nobody overtakes. Commands that are given one after the other, each with
all that it causes, see to that.

Once the channel is closed nothing enters it. Calls that wait are turned away, and so are
all that come later; what stood in the channel can be received, first things first.
-/

namespace ResourceWatch.DispatchWorld

variable {w w' w₀ : DispatchWorld} {past : Past DispatchWorld Command} {table : FilterTable}
  {capacity : Nat} {t u : TaskId} {e : ChangeEvent} {h : Happening Command}

/-- The change of a call that reported that it passed one on. -/
def passedOn? (table : FilterTable) (past : Past DispatchWorld Command) (w : DispatchWorld)
    (t : TaskId) : Option ChangeEvent :=
  if w.tasks[t]? = some (.ended .forwarded) then change? table past t else none

/-- How many times something is to be received. -/
def takes (past : Past DispatchWorld Command) : Nat :=
  past.countP fun | (_, .command .receive) => true | _ => false

section Contents

/-- What is received and what stands in the channel after something has happened. -/
inductive Flow (w : DispatchWorld) (h : Happening Command) (w' : DispatchWorld) : Prop where
  /-- Something may have entered the channel. -/
  | enters (received : w'.received = w.received)
      (buffer : w'.channel.buffer = w.channel.buffer ++ (enters w h).map Prod.snd)
      (taken : takes [(w, h)] = 0)
  /-- The first change was taken, if there was one. -/
  | takes (command : h = .command .receive)
      (received : w'.received = w.received ++ w.channel.buffer.take 1)
      (buffer : w'.channel.buffer = w.channel.buffer.drop 1)
  /-- The receiver was dropped. -/
  | drops (command : h = .command .drop) (received : w'.received = w.received)
      (buffer : w'.channel.buffer = [])

theorem receive_flow (w : DispatchWorld) :
    w.receive.received = w.received ++ w.channel.buffer.take 1 ∧
      w.receive.channel.buffer = w.channel.buffer.drop 1 := by
  rw [receive]
  split
  next e channel woken received =>
    obtain ⟨rest, buffer, granting⟩ := Path.receive?_eq_some.1 received
    have kept : channel.buffer = rest := by
      have := Path.grant_buffer { w.channel with buffer := rest }
      rwa [granting] at this
    cases woken <;> simp [wake, buffer, kept]
  next none =>
    simp [Engine.receive?_eq_none.1 none]

theorem flow_after (w : DispatchWorld) (h : Happening Command) : Flow w h (conduct.after w h) := by
  cases h with
  | elapse time => exact .enters rfl (List.append_nil _).symm rfl
  | move t =>
      refine .enters (run_frame w t).2.1 ?_ rfl
      have turn := turn_run w t
      generalize enters w (.move t) = put at turn
      show (Cooperative.run w t).channel.buffer = _
      cases turn with
      | enters e offers unclosed room tasks channel => rw [channel]; rfl
      | _ => simp [*]
  | command c =>
      cases c with
      | handle | close | drain | look => exact .enters rfl (List.append_nil _).symm rfl
      | drop => exact .drops rfl rfl rfl
      | receive => exact .takes rfl (receive_flow w).1 (receive_flow w).2

/-- As long as the receiver is there, what it has taken and what still stands in the channel
is what has entered the channel. -/
theorem contents (run : conduct.Run (start table capacity) past w) (attended : Attended past) :
    w.received ++ w.channel.buffer = (entries past).map Prod.snd := by
  induction run with
  | start => rfl
  | @next past w h run possible ih =>
      have before := ih fun v there => attended v (List.mem_append_left _ there)
      rw [entries_append, List.map_append, ← before]
      cases flow_after w h with
      | enters received buffer => rw [received, buffer, List.append_assoc]
      | takes command received buffer =>
          rw [received, buffer, List.append_assoc, List.take_append_drop, command]
          exact (List.append_nil _).symm
      | drops command => exact absurd (by simp [command]) (attended w)

end Contents

section Entries

variable {α β : Type} {l : List (α × β)} {f : α → Option β}

/-- What entries say is what a function says of their keys. -/
theorem map_snd_eq_filterMap (told : ∀ a b, (a, b) ∈ l → f a = some b) :
    l.map Prod.snd = (l.map Prod.fst).filterMap f := by
  induction l with
  | nil => rfl
  | cons entry l ih =>
      obtain ⟨a, b⟩ := entry
      have first := told a b List.mem_cons_self
      simp only [List.map_cons, List.filterMap_cons, first]
      rw [ih fun a b there => told a b (List.mem_cons_of_mem _ there)]

end Entries

theorem passedOn?_eq_some : passedOn? table past w t = some e ↔
    w.tasks[t]? = some (.ended .forwarded) ∧ change? table past t = some e := by
  rw [passedOn?]
  split
  next ended => simp [ended]
  next other => simp [other]

/-- Calls that did not pass their change on do not count. -/
theorem filterMap_filter_passed (table : FilterTable) (past : Past DispatchWorld Command)
    (w : DispatchWorld) (ts : List TaskId) :
    (ts.filter w.passed).filterMap (passedOn? table past w) =
      ts.filterMap (passedOn? table past w) := by
  rw [List.filterMap_filter]
  refine List.filterMap_congr fun t _ => ?_
  split
  next => rfl
  next other => rw [passedOn?, if_neg (mt passed_eq_true.2 other)]

/-- What stands in the channel, or has stood there, is what the calls that came in passed
on. -/
theorem received_append_buffer (run : conduct.Run (start table capacity) past w)
    (attended : Attended past) :
    w.received ++ w.channel.buffer = (admitted past).filterMap (passedOn? table past w) := by
  rw [contents run attended]
  exact map_snd_eq_filterMap fun t e there =>
    passedOn?_eq_some.2 (((kept_of_run run).entered t e).1 there)

/-- The calls that passed their change on, in the order in which they were made. -/
theorem admitted_perm (run : conduct.Run (start table capacity) past w) :
    (admitted past).Perm ((List.range w.tasks.length).filter w.passed) := by
  have k := kept_of_run run
  have once : (admitted past).Nodup := k.once
  refine (List.perm_ext_iff_of_nodup once (List.nodup_range.filter _)).2 fun t => ?_
  rw [k.mem_admitted, List.mem_filter, List.mem_range, passed_eq_true]
  refine (and_iff_right_of_imp fun passed => ?_).symm
  exact (List.getElem?_eq_some_iff.1 passed).1

/-- Calls that begin in their turn begin in the order in which they were made. -/
theorem filter_passed_begun (run : conduct.Run (start table capacity) past w)
    (inTurn : InTurn past) :
    (begun past).filter w.passed = (List.range w.tasks.length).filter w.passed := by
  have silent : (unbegun w).filter w.passed = [] := by
    refine List.filter_eq_nil_iff.2 fun t there passed => ?_
    have fresh := (List.mem_filter.1 there).2
    rw [passed_eq_true.1 passed] at fresh
    cases fresh
  rw [← (numbered_of_run run inTurn).line, List.filter_append, silent, List.append_nil]

section Closing

theorem enters_of_closed (closed : w.channel.closed = true) (h : Happening Command) :
    enters w h = [] := by
  cases h with
  | elapse | command => rfl
  | move t =>
      have turn := turn_run w t
      generalize enters w (.move t) = put at turn
      cases turn with
      | enters e offers unclosed => cases closed.symm.trans unclosed
      | _ => rfl

/-- Nothing has entered the channel since it was closed, and it stays closed. -/
theorem entries_of_closed (run : conduct.Run (start table capacity) past w)
    {before later : Past DispatchWorld Command} {w₁ : DispatchWorld}
    (split : past = before ++ (w₁, h) :: later)
    (closed : (conduct.after w₁ h).channel.closed = true) :
    w.channel.closed = true ∧ entries past = entries (before ++ [(w₁, h)]) := by
  induction run generalizing later with
  | start => simp at split
  | @next past w h' run possible ih =>
      obtain ⟨rfl, same, rfl⟩ | ⟨rest, rfl, rfl⟩ := append_singleton_eq_append_cons.1 split
      · cases same
        exact ⟨closed, rfl⟩
      · obtain ⟨shut, same⟩ := ih rfl
        refine ⟨closed_after h' shut, ?_⟩
        rw [entries_append, enters_of_closed shut, List.append_nil, same]

/-- What stood in a channel that was closed is received or still stands there, unless the
receiver was dropped. -/
theorem left_of_closed (run : conduct.Run (start table capacity) past w)
    {before later : Past DispatchWorld Command} {w₁ : DispatchWorld}
    (split : past = before ++ (w₁, h) :: later)
    (closed : (conduct.after w₁ h).channel.closed = true) :
    w.received ++ w.channel.buffer <+:
        (conduct.after w₁ h).received ++ (conduct.after w₁ h).channel.buffer ∧
      (Attended later → w.received = (conduct.after w₁ h).received ++
          (conduct.after w₁ h).channel.buffer.take (takes later) ∧
        w.channel.buffer = (conduct.after w₁ h).channel.buffer.drop (takes later)) := by
  induction run generalizing later with
  | start => simp at split
  | @next past w h' run possible ih =>
      obtain ⟨rfl, same, rfl⟩ | ⟨rest, rfl, rfl⟩ := append_singleton_eq_append_cons.1 split
      · cases same
        exact ⟨List.prefix_rfl, fun _ => ⟨by simp [takes], by simp [takes]⟩⟩
      · obtain ⟨added, left⟩ := ih rfl
        have shut := (entries_of_closed run rfl closed).1
        have attended (there : Attended (rest ++ [(w, h')])) : Attended rest :=
          fun v early => there v (List.mem_append_left _ early)
        have counts : takes (rest ++ [(w, h')]) = takes rest + takes [(w, h')] :=
          List.countP_append
        cases flow_after w h' with
        | enters received buffer taken =>
            rw [enters_of_closed shut, List.map_nil, List.append_nil] at buffer
            rw [received, buffer, counts, taken]
            exact ⟨added, fun there => left (attended there)⟩
        | takes command received buffer =>
            have one : takes [(w, h')] = 1 := by rw [command]; rfl
            rw [received, buffer, counts, one, List.append_assoc, List.take_append_drop]
            refine ⟨added, fun there => ?_⟩
            obtain ⟨taken, stands⟩ := left (attended there)
            rw [taken, stands, List.drop_drop, List.append_assoc, ← List.take_add]
            exact ⟨rfl, rfl⟩
        | drops command received buffer =>
            rw [received, buffer, List.append_nil]
            refine ⟨(List.prefix_append _ _).trans added, fun there => ?_⟩
            exact absurd (by simp [command]) (there w)

end Closing

section Counting

/-- A call that has not ended counts once it has. -/
theorem count_set_of_unended {c : Call} (task : w.tasks[t]? = some c) (unended : ∀ o, c ≠ .ended o)
    (c' : Call) (o : DispatchOutcome) : (w.tasks.set t c').count (.ended o) =
      w.tasks.count (.ended o) + if c' = .ended o then 1 else 0 := by
  obtain ⟨there, same⟩ := List.getElem?_eq_some_iff.1 task
  rw [List.count_set there, same]
  simp [unended o]

theorem finish_outcomes {c : Call} (task : w.tasks[t]? = some c) (unended : ∀ o, c ≠ .ended o)
    (o' o : DispatchOutcome) : (w.finish t o').history.outcomes o + w.tasks.count (.ended o) =
      w.history.outcomes o + (w.finish t o').tasks.count (.ended o) := by
  show History.outcomes (w.history ++ [.handled o']) o + _ =
    _ + (w.tasks.set t (Call.ended o')).count _
  rw [count_set_of_unended task unended, History.outcomes, List.countP_append]
  by_cases same : o' = o
  · simp [same, History.outcomes]
    omega
  · simp [same, History.outcomes]

theorem send_outcomes {c : Call} (task : w.tasks[t]? = some c) (unended : ∀ o, c ≠ .ended o)
    (e : ChangeEvent) (o : DispatchOutcome) :
    (w.send t e).history.outcomes o + w.tasks.count (.ended o) =
      w.history.outcomes o + (w.send t e).tasks.count (.ended o) := by
  rw [send]
  rcases w.channel.offer t e with ⟨channel, answer⟩
  cases answer with
  | refused => exact finish_outcomes (w := { w with channel }) task unended .closed o
  | sent =>
      have entered : History.outcomes (w.history ++ [.entered e]) o = w.history.outcomes o := by
        simp [History.outcomes]
      rw [← entered]
      exact finish_outcomes (w := { w with channel }.note (.entered e)) task unended .forwarded o
  | wait =>
      show _ = _ + (w.tasks.set t (Call.sending e)).count _
      rw [count_set_of_unended task unended]
      simp

theorem foldl_note_outcomes (log : List LogEvent) (w : DispatchWorld) (o : DispatchOutcome) :
    (log.foldl (fun w e => w.note (.logged e)) w).history.outcomes o = w.history.outcomes o := by
  induction log generalizing w with
  | nil => rfl
  | cons e log ih =>
      refine (ih (w.note (.logged e))).trans ?_
      simp [note, History.outcomes]

/-- The outcome of a call is counted when it ends, and nothing else is. -/
theorem run_outcomes (w : DispatchWorld) (t : TaskId) (o : DispatchOutcome) :
    (Cooperative.run w t).history.outcomes o + w.tasks.count (.ended o) =
      w.history.outcomes o + (Cooperative.run w t).tasks.count (.ended o) := by
  rw [run_eq]
  show (w.act t).1.history.outcomes o + _ = _ + (w.act t).1.tasks.count _
  rw [act]
  split
  next gvk n task =>
    have told := foldl_note_outcomes (w.table.judge gvk n).2 w o
    obtain ⟨history, noted⟩ := foldl_note (w.table.judge gvk n).2 w
    dsimp only
    rw [noted] at told ⊢
    rw [← told]
    split
    · exact finish_outcomes (w := { w with history }) task (by simp) _ o
    · exact send_outcomes (w := { w with history }) task (by simp) _ o
  next e task => exact send_outcomes task (by simp) e o
  next => rfl

theorem outcomes_of_run (run : conduct.Run (start table capacity) past w) (o : DispatchOutcome) :
    w.history.outcomes o = w.tasks.count (.ended o) := by
  induction run with
  | start => rfl
  | @next past w h run possible ih =>
      cases h with
      | move t =>
          have := run_outcomes w t o
          show (Cooperative.run w t).history.outcomes o = (Cooperative.run w t).tasks.count _
          omega
      | elapse time => exact ih
      | command c =>
          cases c with
          | handle gvk n =>
              show w.history.outcomes o = (w.tasks ++ [Call.fresh gvk n]).count (Call.ended o)
              rw [List.count_append, ih]
              simp
          | drop | close | drain | look => exact ih
          | receive =>
              show w.receive.history.outcomes o = w.receive.tasks.count (.ended o)
              rw [receive]
              split
              next e channel woken received => cases woken <;> exact ih
              next => exact ih

end Counting

/-- What a dispatcher owes to its callers and to its receiver. -/
structure Backpressure (table : FilterTable) (capacity : Nat)
    (past : Past DispatchWorld Command) (w : DispatchWorld) : Prop where
  /-- The channel never holds more changes than it may. -/
  bounded : w.channel.buffer.length ≤ capacity
  /-- As long as the receiver is there, what it has received and what stands in the channel
  are the changes of the calls that reported that they passed one on, each of them once, in
  whatever order calls go on. -/
  kept : Attended past → (w.received ++ w.channel.buffer).Perm
    ((List.range w.tasks.length).filterMap (passedOn? table past w))
  /-- They come in the order in which the calls came in. -/
  carried : Attended past →
    w.received ++ w.channel.buffer = (admitted past).filterMap (passedOn? table past w)
  /-- This is the order in which the calls began exactly if no call overtakes another. -/
  ordered : admitted past = (begun past).filter w.passed ↔ ∀ t u, ¬ Overtakes past w t u
  /-- It is then the order in which they were made too, if they go on in their turn. -/
  called : InTurn past → (admitted past = (List.range w.tasks.length).filter w.passed ↔
    ∀ t u, ¬ Overtakes past w t u)
  /-- So the changes come in the order of the calls as long as no call overtakes another. -/
  delivered : Attended past → InTurn past → (∀ t u, ¬ Overtakes past w t u) →
    w.received ++ w.channel.buffer =
      (List.range w.tasks.length).filterMap (passedOn? table past w)
  /-- No call does if room is used before a change is received. -/
  unhurried : Unhurried past → ∀ t u, ¬ Overtakes past w t u
  /-- A call ends as its notification is judged, or is turned away at a closed channel. -/
  answered : ∀ (t : TaskId) gvk n o, (calls past)[t]? = some (gvk, n) →
    w.tasks[t]? = some (.ended o) → (table.judge gvk n).1 = .drop o ∨
      ∃ e, (table.judge gvk n).1 = .forward e ∧
        (o = .forwarded ∨ o = .closed ∧ w.channel.closed = true)
  /-- When nothing can move, a call that has not ended waits at a channel that is open and
  full. -/
  pending : Cooperative.Idle w → ∀ (t : TaskId) gvk n, (calls past)[t]? = some (gvk, n) →
    (∃ o, w.tasks[t]? = some (.ended o)) ∨
      (∃ e, (table.judge gvk n).1 = .forward e ∧ w.tasks[t]? = some (.sending e)) ∧
        w.channel.closed = false ∧ w.channel.buffer.length = capacity
  /-- Since the channel was closed nothing has entered it. -/
  closed : ∀ before w₁ h later, past = before ++ (w₁, h) :: later →
    (conduct.after w₁ h).channel.closed = true →
      w.received ++ w.channel.buffer <+:
        (conduct.after w₁ h).received ++ (conduct.after w₁ h).channel.buffer
  /-- What stood in it can still be received, first things first, as long as the receiver is
  there. -/
  left : ∀ before w₁ h later, past = before ++ (w₁, h) :: later →
    (conduct.after w₁ h).channel.closed = true → Attended later →
      w.received = (conduct.after w₁ h).received ++
          (conduct.after w₁ h).channel.buffer.take (takes later) ∧
        w.channel.buffer = (conduct.after w₁ h).channel.buffer.drop (takes later)
  /-- When nothing can move, every call with a change to pass on that had not ended then, or
  was made later, has been turned away. -/
  refused : ∀ before w₁ h later, past = before ++ (w₁, h) :: later →
    (conduct.after w₁ h).channel.closed = true → Cooperative.Idle w → ∀ (t : TaskId) e,
      change? table past t = some e →
      (∀ o, (conduct.after w₁ h).tasks[t]? ≠ some (.ended o)) →
        w.tasks[t]? = some (.ended .closed)
  /-- Every outcome is counted once for each call that has ended so. -/
  counted : ∀ o, w.history.outcomes o = w.tasks.count (.ended o)

/-- When nothing can move, a call has ended, or waits at a channel that is open and full. -/
theorem Kept.ended_or_waits (k : Kept table capacity past w) (idle : Cooperative.Idle w) {c : Call}
    (task : w.tasks[t]? = some c) : (∃ o, c = .ended o) ∨
      (∃ e, c = .sending e ∧ change? table past t = some e) ∧ w.channel.closed = false ∧
        w.channel.buffer.length = capacity := by
  have rests (u : TaskId) : u ∉ w.schedule.ready := by
    rw [show w.schedule.ready = [] from idle]
    exact List.not_mem_nil
  cases k.stands t c task with
  | fresh _ _ _ ready => exact absurd ready (rests t)
  | dropped _ _ o => exact .inl ⟨o, rfl⟩
  | passed => exact .inl ⟨_, rfl⟩
  | refused => exact .inl ⟨_, rfl⟩
  | sending e change queued ready =>
      have unclosed : w.channel.closed = false :=
        Bool.eq_false_iff.2 fun closed => rests t (ready closed)
      have ungranted : w.channel.granted = [] :=
        List.eq_nil_iff_forall_not_mem.2 fun u given => rests u (k.granted u given)
      have waits := queued unclosed
      rw [ungranted, List.append_nil] at waits
      have full := k.sound.full (List.ne_nil_of_mem waits)
      have bounded := k.bounded
      rw [k.size, ungranted] at full
      rw [ungranted] at bounded
      exact .inr ⟨⟨e, rfl, change⟩, unclosed, Nat.le_antisymm bounded full⟩

theorem Kept.made (k : Kept table capacity past w) {gvk : Gvk} {n : Notification}
    (call : (calls past)[t]? = some (gvk, n)) : ∃ c, w.tasks[t]? = some c := by
  have there := (List.getElem?_eq_some_iff.1 call).1
  rw [← k.length] at there
  exact ⟨_, List.getElem?_eq_getElem there⟩

/-- A call with a change to pass on was judged so. -/
theorem judged_of_change {gvk : Gvk} {n : Notification} (call : (calls past)[t]? = some (gvk, n))
    (change : change? table past t = some e) : (table.judge gvk n).1 = .forward e := by
  obtain ⟨gvk', n', call', judged⟩ := change?_eq_some.1 change
  cases call.symm.trans call'
  exact judged

/-- When nothing can move, a call with a change to pass on that had not ended when the channel
was closed has been turned away. -/
theorem refused_of_closed (run : conduct.Run (start table capacity) past w)
    {before later : Past DispatchWorld Command} {w₁ : DispatchWorld}
    (split : past = before ++ (w₁, h) :: later)
    (closed : (conduct.after w₁ h).channel.closed = true) (idle : Cooperative.Idle w)
    (change : change? table past t = some e)
    (unended : ∀ o, (conduct.after w₁ h).tasks[t]? ≠ some (.ended o)) :
    w.tasks[t]? = some (.ended .closed) := by
  have k := kept_of_run run
  obtain ⟨shut, same⟩ := entries_of_closed run split closed
  obtain ⟨early, possible⟩ := run.split split
  obtain ⟨gvk, n, call, judged⟩ := change?_eq_some.1 change
  obtain ⟨c, task⟩ := k.made call
  obtain ⟨o, rfl⟩ | ⟨-, unclosed, -⟩ := k.ended_or_waits idle task
  · cases k.stands t _ task with
    | dropped gvk' n' _ call' drops =>
        cases call.symm.trans call'
        cases judged.symm.trans drops
    | refused => exact task
    | passed e' change' =>
        have before_closing := (k.entered t e').2 ⟨task, change'⟩
        rw [same] at before_closing
        exact absurd (((kept_of_run (early.next possible)).entered t e').1 before_closing).1
          (unended _)
  · cases shut.symm.trans unclosed

/-- A dispatcher owes all this in every run. -/
theorem Backpressure.of_run (run : conduct.Run (start table capacity) past w) :
    Backpressure table capacity past w := by
  have k := kept_of_run run
  have called (inTurn : InTurn past) :
      admitted past = (List.range w.tasks.length).filter w.passed ↔
        ∀ t u, ¬ Overtakes past w t u := by
    rw [← filter_passed_begun run inTurn]
    exact admitted_eq_iff run
  refine ⟨?_, ?_, received_append_buffer run, admitted_eq_iff run, called, ?_,
    not_overtakes_of_unhurried run, ?_, ?_, ?_, ?_, ?_, outcomes_of_run run⟩
  · have := k.bounded
    omega
  · intro attended
    rw [received_append_buffer run attended,
      ← filterMap_filter_passed table past w (List.range _)]
    exact (admitted_perm run).filterMap _
  · intro attended inTurn fair
    rw [received_append_buffer run attended, (called inTurn).2 fair, filterMap_filter_passed]
  · intro t gvk n o call task
    cases k.stands t _ task with
    | dropped gvk' n' _ call' drops =>
        cases call.symm.trans call'
        exact .inl drops
    | passed e change => exact .inr ⟨e, judged_of_change call change, .inl rfl⟩
    | refused e change closed => exact .inr ⟨e, judged_of_change call change, .inr ⟨rfl, closed⟩⟩
  · intro idle t gvk n call
    obtain ⟨c, task⟩ := k.made call
    obtain ⟨o, rfl⟩ | ⟨⟨e, rfl, change⟩, waits⟩ := k.ended_or_waits idle task
    · exact .inl ⟨o, task⟩
    · exact .inr ⟨⟨e, judged_of_change call change, task⟩, waits⟩
  · exact fun before w₁ h later split closed => (left_of_closed run split closed).1
  · exact fun before w₁ h later split closed => (left_of_closed run split closed).2
  · exact fun before w₁ h later split closed idle t e change unended =>
      refused_of_closed run split closed idle change unended

/-- Every run keeps what is owed, also while something is still under way. Where commands are
given one after the other, each with all that it causes, and the receiver is there, what it
has received and what stands in the channel are the changes of the calls that reported that
they passed one on, in the order in which they were made. -/
theorem backpressure_of_run (table : FilterTable) (capacity : Nat) :
    (∀ past w, conduct.Run (start table capacity) past w →
      Backpressure table capacity past w) ∧
    ∀ commands : List Command, commands.length ≤ Cooperative.patience →
      ∃ past, Rests (start table capacity) past (commands.foldl perform (start table capacity)) ∧
        (.drop ∉ commands →
          let w := commands.foldl perform (start table capacity)
          w.received ++ w.channel.buffer =
            (List.range w.tasks.length).filterMap (passedOn? table past w)) := by
  refine ⟨fun past w run => .of_run run, fun commands few => ?_⟩
  obtain ⟨past, rests, attended⟩ := rests_performs commands few
  exact ⟨past, rests, fun undropped =>
    (Backpressure.of_run rests.run).delivered (attended undropped) rests.steady.1
      (not_overtakes_of_unhurried rests.run rests.steady.2)⟩

/-- A kind all of whose objects are of interest to one owner. -/
def pods : Gvk := ⟨"", "v1", "Pod"⟩

def podTable : FilterTable := ⟨[(pods, [⟨"owner", ⟨⟨"", "v1", "pods"⟩, none, none⟩⟩])]⟩

def pod (name : String) : Command :=
  .handle pods (.added { metadata := { name := some name } })

/-- Two calls wait at a channel for one change, and one of them is let in before the channel
is closed. -/
def crowded : List (Happening Command) :=
  [.command (pod "a"), .command (pod "b"), .command (pod "c"), .move 0, .move 1, .move 2,
    .command (pod ""), .move 3, .command .receive, .move 1, .command .close, .move 2,
    .command (pod "d"), .move 4, .command .receive]

/-- Three calls at a channel for one change, of which one is received. -/
def queued : List Command := [pod "a", pod "b", pod "c", .receive]

theorem backpressure_of_crowded :
    (∃ past w, conduct.Run (start podTable 1) past w ∧ Cooperative.Idle w ∧
      w.answers = [some .forwarded, some .forwarded, some .closed, some .malformed, some .closed] ∧
      w.received.map (·.reference.name) = ["a", "b"] ∧ Backpressure podTable 1 past w) ∧
    queued.length ≤ Cooperative.patience ∧ .drop ∉ queued ∧
      let w := queued.foldl perform (start podTable 1)
      w.answers = [some .forwarded, some .forwarded, none] ∧
      (w.received ++ w.channel.buffer).map (·.reference.name) = ["a", "b"] ∧
      ∃ past, w.received ++ w.channel.buffer =
        (List.range w.tasks.length).filterMap (passedOn? podTable past w) := by
  have begun : conduct.Run (start podTable 1) [] (start podTable 1) := .start
  have run := begun.follow crowded (by decide +kernel)
  have idle : ((conduct.follow [] (start podTable 1) crowded).get
      (by decide +kernel)).2.schedule.ready = [] := by
    decide +kernel
  have few : queued.length ≤ Cooperative.patience := by decide
  have undropped : .drop ∉ queued := by simp [queued, pod]
  obtain ⟨past, -, ordered⟩ := (backpressure_of_run podTable 1).2 queued few
  exact ⟨⟨_, _, run, idle, by decide +kernel, by decide +kernel,
    (backpressure_of_run podTable 1).1 _ _ run⟩, few, undropped, by decide +kernel,
    by decide +kernel, past, ordered undropped⟩

/-- Two changes stand in the channel and a third call waits when two are received at once, and
a fourth call, which has only begun to be ready, goes on before the third. -/
def hasty : List (Happening Command) :=
  [.command (pod "a"), .move 0, .command (pod "b"), .move 1, .command (pod "c"), .move 2,
    .command (pod "d"), .command .receive, .command .receive, .move 3, .move 2]

theorem misordered_of_hasty : ∃ past w, conduct.Run (start podTable 2) past w ∧
    Cooperative.Idle w ∧ InTurn past ∧ Attended past ∧
    w.answers = [some .forwarded, some .forwarded, some .forwarded, some .forwarded] ∧
    (w.received ++ w.channel.buffer).map (·.reference.name) = ["a", "b", "d", "c"] ∧
    ((List.range w.tasks.length).filterMap (passedOn? podTable past w)).map
      (·.reference.name) = ["a", "b", "c", "d"] := by
  have begun : conduct.Run (start podTable 2) [] (start podTable 2) := .start
  have run := begun.follow hasty (by decide +kernel)
  have idle : ((conduct.follow [] (start podTable 2) hasty).get
      (by decide +kernel)).2.schedule.ready = [] := by
    decide +kernel
  exact ⟨_, _, run, idle, by decide +kernel, by decide +kernel, by decide +kernel,
    by decide +kernel, by decide +kernel⟩

end ResourceWatch.DispatchWorld
