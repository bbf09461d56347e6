import ResourceWatch.Dispatch.World
import ResourceWatch.Proofs.Engine.Waiting

/-!
# Every call is answered as it was judged

Calls hand notifications to a dispatcher, in any number and at any time, and go on in
any order; the receiver takes changes whenever it likes. While the channel is open, a
call ends as the filters judge its notification, and puts the change that they pass on,
if they do, on the channel once. A call that has a change to put there waits as long as
the channel is full, and no longer: when nothing can move, every other call has ended.
-/

namespace ResourceWatch

namespace Channel

/-- Nobody has two places in the queue for the channel, and senders wait only while it
has no room. -/
structure Sound (c : Channel) : Prop where
  nodup : (c.waiting ++ c.granted).Nodup
  full : c.waiting ≠ [] → c.capacity ≤ c.buffer.length + c.granted.length

variable {c c' : Channel} {t u : TaskId} {e : ChangeEvent} {woken : Option TaskId}

/-- What happens to the places of senders when one of them puts its change. -/
theorem Sound.put (h : c.Sound) (room : t ∈ c.granted ∨ (t ∉ c.waiting ∧ 0 < c.room))
    (e : ChangeEvent) : ({ c with granted := c.granted.erase t }.put e).Sound ∧
      t ∉ c.waiting ∧ t ∉ c.granted.erase t := by
  have out : t ∉ c.waiting := by
    obtain given | ⟨out, -⟩ := room
    · exact fun there => (List.nodup_append.1 h.nodup).2.2 t there t given rfl
    · exact out
  refine ⟨⟨h.nodup.sublist (List.erase_sublist.append_left _), ?_⟩, out, ?_⟩
  · intro waits
    have full := h.full waits
    simp only [Channel.put, List.length_append, List.length_singleton]
    obtain given | ⟨-, room⟩ := room
    · rw [List.length_erase_of_mem given]
      have := List.length_pos_of_mem given
      omega
    · rw [Channel.room] at room
      omega
  · exact List.Nodup.not_mem_erase (List.nodup_append.1 h.nodup).2.1

theorem Sound.wait (h : c.Sound) (new : t ∉ c.granted ∧ t ∉ c.waiting) (full : c.room = 0) :
    ({ c with waiting := c.waiting ++ [t] } : Channel).Sound := by
  refine ⟨?_, fun _ => ?_⟩
  · have perm : (c.waiting ++ [t] ++ c.granted).Perm (t :: (c.waiting ++ c.granted)) := by
      rw [List.append_assoc]
      exact List.perm_middle
    exact perm.nodup_iff.2 (List.nodup_cons.2 ⟨by simp [new.1, new.2], h.nodup⟩)
  · rw [Channel.room] at full
    simp only
    omega

/-- What is received makes room for the sender that waits longest. -/
theorem Sound.receive (h : c.Sound) (received : c.receive? = some (e, c', woken)) :
    c'.Sound ∧ (∀ u, u ∈ c'.waiting ++ c'.granted ↔ u ∈ c.waiting ++ c.granted) ∧
      ∀ u ∈ c'.granted, u ∈ c.granted ∨ woken = some u := by
  obtain ⟨rest, buffer, given⟩ := Path.receive?_eq_some.1 received
  rw [grant] at given
  split at given
  next none =>
    cases given
    exact ⟨⟨h.nodup, fun waits => absurd none waits⟩, fun _ => Iff.rfl, fun _ there => .inl there⟩
  next t ts waits =>
    cases given
    simp only at waits
    have perm : (ts ++ (c.granted ++ [t])).Perm (c.waiting ++ c.granted) := by
      rw [waits, ← List.append_assoc]
      exact List.perm_append_singleton t (ts ++ c.granted)
    refine ⟨⟨perm.nodup_iff.2 h.nodup, fun _ => ?_⟩, fun _ => perm.mem_iff, ?_⟩
    · have full := h.full (by simp [waits])
      simp only [buffer, List.length_cons, List.length_append, List.length_nil] at full ⊢
      omega
    · intro u there
      obtain there | there := List.mem_append.1 there
      · exact .inl there
      · exact .inr (congrArg some (List.mem_singleton.1 there).symm)

end Channel

namespace DispatchWorld

/-- The world after something is done from outside, before any call goes on. -/
def apply (w : DispatchWorld) : Command → DispatchWorld
  | .handle gvk n =>
    { w with schedule := w.schedule.wake w.tasks.length, tasks := w.tasks ++ [.fresh gvk n] }
  | .receive => w.receive
  | .drop => w.withChannel w.channel.drop
  | .close => w.withChannel w.channel.close
  | .drain | .look => w

/-- Everything may be done at any time. -/
def conduct : Conduct DispatchWorld Command where
  apply := apply
  allows _ _ := true

def start (table : FilterTable) (capacity : Nat) : DispatchWorld :=
  { table, channel := { capacity } }

/-- The calls of a past by their numbers. -/
def calls (past : Past DispatchWorld Command) : List (Gvk × Notification) :=
  past.filterMap fun
    | (_, .command (.handle gvk n)) => some (gvk, n)
    | _ => none

/-- What a call puts on the channel when something happens. -/
def puts (t : TaskId) (w : DispatchWorld) : Happening Command → List ChangeEvent
  | .move u =>
      if u = t then (Cooperative.run w u).channel.buffer.drop w.channel.buffer.length else []
  | _ => []

def putBy (t : TaskId) (past : Past DispatchWorld Command) : List ChangeEvent :=
  past.flatMap fun (w, h) => puts t w h

variable {w w' w₀ : DispatchWorld} {past : Past DispatchWorld Command}

/-- Where a call stands that handed over a notification, and what it has put on the
channel. -/
inductive Fate (table : FilterTable) (gvk : Gvk) (n : Notification) (w : DispatchWorld)
    (t : TaskId) (put : List ChangeEvent) : Prop where
  /-- It has not begun. -/
  | fresh (task : w.tasks[t]? = some (.fresh gvk n)) (ready : t ∈ w.schedule.ready)
      (nothing : put = [])
  /-- It waits for room for the change that is passed on. -/
  | sending (e : ChangeEvent) (task : w.tasks[t]? = some (.sending e))
      (judged : (table.judge gvk n).1 = .forward e) (nothing : put = [])
      (stands : t ∈ w.channel.waiting ++ w.channel.granted)
  /-- Its notification was dropped. -/
  | dropped (outcome : DispatchOutcome) (task : w.tasks[t]? = some (.ended outcome))
      (judged : (table.judge gvk n).1 = .drop outcome) (nothing : put = [])
  /-- Its change was passed on. -/
  | passed (e : ChangeEvent) (task : w.tasks[t]? = some (.ended .forwarded))
      (judged : (table.judge gvk n).1 = .forward e) (once : put = [e])

/-- The calls of a past stand as they should, and the channel is shared fairly. -/
structure Orderly (table : FilterTable) (past : Past DispatchWorld Command)
    (w : DispatchWorld) : Prop where
  filters : w.table = table
  length : w.tasks.length = (calls past).length
  channel : w.channel.Sound
  senders : ∀ u ∈ w.channel.waiting ++ w.channel.granted, ∃ e, w.tasks[u]? = some (.sending e)
  granted : ∀ u ∈ w.channel.granted, u ∈ w.schedule.ready
  fates : ∀ t gvk n, (calls past)[t]? = some (gvk, n) → Fate table gvk n w t (putBy t past)
  unborn : ∀ t, (calls past)[t]? = none → putBy t past = []

variable {table : FilterTable} {gvk : Gvk} {n : Notification} {t u : TaskId}
  {put : List ChangeEvent} {h : Happening Command}

theorem Orderly.start (table : FilterTable) (capacity : Nat) :
    Orderly table [] (start table capacity) :=
  ⟨rfl, rfl, ⟨.nil, by simp [DispatchWorld.start]⟩, by simp [DispatchWorld.start],
    by simp [DispatchWorld.start], by simp [calls], fun _ _ => rfl⟩

/-- A call that nothing happens to stays where it stands. -/
theorem Fate.keep (fate : Fate table gvk n w t put) (task : w'.tasks[t]? = w.tasks[t]?)
    (ready : w.tasks[t]? = some (.fresh gvk n) → t ∈ w.schedule.ready → t ∈ w'.schedule.ready)
    (stands : t ∈ w.channel.waiting ++ w.channel.granted →
      t ∈ w'.channel.waiting ++ w'.channel.granted) : Fate table gvk n w' t put := by
  cases fate with
  | fresh there waits nothing => exact .fresh (task.trans there) (ready there waits) nothing
  | sending e there judged nothing place =>
      exact .sending e (task.trans there) judged nothing (stands place)
  | dropped outcome there judged nothing => exact .dropped outcome (task.trans there) judged nothing
  | passed e there judged once => exact .passed e (task.trans there) judged once

theorem putBy_append (t : TaskId) (past : Past DispatchWorld Command) (w : DispatchWorld)
    (h : Happening Command) : putBy t (past ++ [(w, h)]) = putBy t past ++ puts t w h := by
  simp [putBy]

theorem run_eq (w : DispatchWorld) (t : TaskId) :
    Cooperative.run w t = { (w.act t).1 with schedule := (w.act t).1.schedule.rest t } := by
  have rests : (w.act t).2 = .rests := by
    rw [act]
    split
    · dsimp only
      split <;> rfl
    · rfl
    · rfl
  exact Cooperative.run_of_rests (Prod.ext rfl rests)

theorem foldl_note (log : List LogEvent) (w : DispatchWorld) :
    ∃ history, log.foldl (fun w e => w.note (.logged e)) w = { w with history } := by
  induction log generalizing w with
  | nil => exact ⟨w.history, rfl⟩
  | cons e log ih => exact ih (w.note (.logged e))

/-- What a call does when it goes on. -/
inductive Moved (w : DispatchWorld) (t : TaskId) (w' : DispatchWorld) : Prop where
  /-- There is no such call, or it has ended. -/
  | nothing (fresh : ∀ gvk n, w.tasks[t]? ≠ some (.fresh gvk n))
      (sending : ∀ e, w.tasks[t]? ≠ some (.sending e))
      (same : w' = { w with schedule := w.schedule.rest t })
  /-- Its notification is dropped. -/
  | drop (gvk : Gvk) (n : Notification) (outcome : DispatchOutcome)
      (task : w.tasks[t]? = some (.fresh gvk n)) (judged : (w.table.judge gvk n).1 = .drop outcome)
      (tasks : w'.tasks = w.tasks.set t (.ended outcome)) (channel : w'.channel = w.channel)
      (schedule : w'.schedule = w.schedule.rest t) (table : w'.table = w.table)
  /-- It offers its change. -/
  | offer (e : ChangeEvent)
      (task : w.tasks[t]? = some (.sending e) ∨ ∃ gvk n, w.tasks[t]? = some (.fresh gvk n) ∧
        (w.table.judge gvk n).1 = .forward e)
      (tasks : w'.tasks = w.tasks.set t (match (w.channel.offer t e).2 with
        | .sent => .ended .forwarded
        | .refused => .ended .closed
        | .wait => .sending e))
      (channel : w'.channel = (w.channel.offer t e).1)
      (schedule : w'.schedule = w.schedule.rest t) (table : w'.table = w.table)

theorem moved_run (w : DispatchWorld) (t : TaskId) : Moved w t (Cooperative.run w t) := by
  have sends (w : DispatchWorld) (e : ChangeEvent) :
      (w.send t e).tasks = w.tasks.set t (match (w.channel.offer t e).2 with
        | .sent => .ended .forwarded
        | .refused => .ended .closed
        | .wait => .sending e) ∧
      (w.send t e).channel = (w.channel.offer t e).1 ∧
      (w.send t e).schedule = w.schedule ∧ (w.send t e).table = w.table := by
    rw [send]
    rcases w.channel.offer t e with ⟨c, _ | _ | _⟩ <;> exact ⟨rfl, rfl, rfl, rfl⟩
  rw [run_eq, act]
  split
  next gvk n task =>
    rcases judged : w.table.judge gvk n with ⟨verdict, log⟩
    obtain ⟨history, noted⟩ := foldl_note log w
    have first : (w.table.judge gvk n).1 = verdict := congrArg Prod.fst judged
    cases verdict with
    | drop outcome =>
        simp only [noted]
        exact .drop gvk n outcome task first rfl rfl rfl rfl
    | forward e =>
        obtain ⟨tasks, channel, schedule, table⟩ := sends { w with history } e
        simp only [noted]
        exact .offer e (.inr ⟨gvk, n, task, first⟩) tasks channel (by rw [schedule]) table
  next e task =>
    obtain ⟨tasks, channel, schedule, table⟩ := sends w e
    exact .offer e (.inl task) tasks channel (by rw [schedule]) table
  next fresh sending => exact .nothing fresh sending rfl

theorem calls_append (past past' : Past DispatchWorld Command) :
    calls (past ++ past') = calls past ++ calls past' := List.filterMap_append

/-- Only the call that goes on puts something on the channel. -/
theorem puts_move_of_ne (other : u ≠ t) : puts u w (.move t) = [] :=
  if_neg (Ne.symm other)

/-- A call has gone on, and only its own place in the queue for the channel changed. -/
theorem Orderly.turn (o : Orderly table past w) {c : Call} (there : t < w.tasks.length)
    (tasks : w'.tasks = w.tasks.set t c) (schedule : w'.schedule = w.schedule.rest t)
    (filters : w'.table = w.table) (channel : w'.channel.Sound)
    (others : ∀ u, u ≠ t → (u ∈ w'.channel.waiting ++ w'.channel.granted ↔
      u ∈ w.channel.waiting ++ w.channel.granted))
    (granted : ∀ u ∈ w'.channel.granted, u ∈ w.channel.granted ∧ u ≠ t)
    (own : t ∈ w'.channel.waiting ++ w'.channel.granted → ∃ e, c = .sending e)
    (fate : ∀ gvk n, (calls past)[t]? = some (gvk, n) →
      Fate table gvk n w' t (putBy t past ++ puts t w (.move t))) :
    Orderly table (past ++ [(w, Happening.move t)]) w' := by
  have same (u : TaskId) (other : u ≠ t) : w'.tasks[u]? = w.tasks[u]? := by
    rw [tasks, List.getElem?_set_ne (Ne.symm other)]
  have moved : calls (past ++ [(w, Happening.move t)]) = calls past := by simp [calls]
  refine ⟨filters.trans o.filters, by rw [moved, tasks, List.length_set, o.length], channel,
    ?_, ?_, ?_, ?_⟩
  · intro u place
    by_cases here : u = t
    · obtain ⟨e, rfl⟩ := own (here ▸ place)
      exact ⟨e, by rw [here, tasks, List.getElem?_set_self there]⟩
    · rw [same u here]
      exact o.senders u ((others u here).1 place)
  · intro u given
    obtain ⟨before, other⟩ := granted u given
    rw [schedule]
    exact Schedule.mem_rest_of_ne (o.granted u before) other
  · intro u gvk n call
    rw [moved] at call
    rw [putBy_append]
    by_cases here : u = t
    · subst here
      exact fate gvk n call
    · rw [puts_move_of_ne here, List.append_nil]
      exact (o.fates u gvk n call).keep (same u here)
        (fun _ ready => schedule ▸ Schedule.mem_rest_of_ne ready here) (others u here).2
  · intro u none
    rw [moved] at none
    rw [putBy_append, o.unborn u none, puts_move_of_ne, List.nil_append]
    rintro rfl
    rw [List.getElem?_eq_none_iff, ← o.length] at none
    exact absurd there (Nat.not_lt.2 none)

theorem puts_move (w : DispatchWorld) (t : TaskId) : puts t w (.move t) =
    (Cooperative.run w t).channel.buffer.drop w.channel.buffer.length := if_pos rfl

/-- A call that has not begun handed over what it was called with, and has put nothing on
the channel. -/
theorem Orderly.of_fresh (o : Orderly table past w) {gvk' : Gvk} {n' : Notification}
    (task : w.tasks[t]? = some (.fresh gvk' n')) (call : (calls past)[t]? = some (gvk, n)) :
    gvk' = gvk ∧ n' = n ∧ putBy t past = [] := by
  cases o.fates t gvk n call with
  | fresh task' _ nothing =>
      cases task.symm.trans task'
      exact ⟨rfl, rfl, nothing⟩
  | sending _ task' | dropped _ task' | passed _ task' => cases task.symm.trans task'

/-- The change that a call offers is the one that its notification amounts to, and the
call has put nothing on the channel before. -/
theorem Orderly.of_offering (o : Orderly table past w) {e : ChangeEvent}
    (task : w.tasks[t]? = some (.sending e) ∨ ∃ gvk n, w.tasks[t]? = some (.fresh gvk n) ∧
      (w.table.judge gvk n).1 = .forward e)
    (call : (calls past)[t]? = some (gvk, n)) :
    (table.judge gvk n).1 = .forward e ∧ putBy t past = [] := by
  obtain task | ⟨gvk', n', task, judged⟩ := task
  · cases o.fates t gvk n call with
    | sending e' task' judged nothing =>
        cases task.symm.trans task'
        exact ⟨judged, nothing⟩
    | fresh task' | dropped _ task' | passed _ task' => cases task.symm.trans task'
  · obtain ⟨rfl, rfl, nothing⟩ := o.of_fresh task call
    exact ⟨o.filters ▸ judged, nothing⟩

/-- A call that neither begins nor sends changes nothing by going on. -/
theorem Orderly.rest (o : Orderly table past w) (fresh : ∀ gvk n, w.tasks[t]? ≠ some (.fresh gvk n))
    (sending : ∀ e, w.tasks[t]? ≠ some (.sending e)) (put : puts t w (.move t) = []) :
    Orderly table (past ++ [(w, Happening.move t)]) { w with schedule := w.schedule.rest t } := by
  have silent (u : TaskId) : putBy u (past ++ [(w, Happening.move t)]) = putBy u past := by
    rw [putBy_append]
    by_cases here : u = t
    · rw [here, put, List.append_nil]
    · rw [puts_move_of_ne here, List.append_nil]
  have moved : calls (past ++ [(w, Happening.move t)]) = calls past := by simp [calls]
  refine ⟨o.filters, moved ▸ o.length, o.channel, o.senders, ?_, ?_, ?_⟩
  · intro u given
    obtain ⟨e, sends⟩ := o.senders u (List.mem_append_right _ given)
    exact Schedule.mem_rest_of_ne (o.granted u given) fun here => sending e (here ▸ sends)
  · intro u gvk n call
    rw [silent]
    refine (o.fates u gvk n (moved ▸ call)).keep rfl (fun unbegun ready => ?_) id
    exact Schedule.mem_rest_of_ne ready fun here => fresh gvk n (here ▸ unbegun)
  · exact fun u none => (silent u).trans (o.unborn u (moved ▸ none))

/-- A call that goes on while the channel is open keeps everything in order. -/
theorem Orderly.move (o : Orderly table past w) (unclosed : w.channel.closed = false)
    (t : TaskId) : Orderly table (past ++ [(w, Happening.move t)]) (Cooperative.run w t) := by
  have put := puts_move w t
  cases moved_run w t with
  | nothing fresh sending same =>
      rw [same, List.drop_length] at put
      rw [same]
      exact o.rest fresh sending put
  | drop gvk n outcome task judged tasks channel schedule filters =>
      have there := (List.getElem?_eq_some_iff.1 task).1
      have out : t ∉ w.channel.waiting ++ w.channel.granted := by
        intro place
        obtain ⟨e, sends⟩ := o.senders t place
        cases task.symm.trans sends
      rw [channel, List.drop_length] at put
      refine o.turn there tasks schedule filters (channel ▸ o.channel)
        (fun _ _ => by rw [channel]) ?_ (fun place => absurd (channel ▸ place) out) ?_
      · rw [channel]
        exact fun u given => ⟨given, fun here => out (List.mem_append_right _ (here ▸ given))⟩
      · intro gvk' n' call
        obtain ⟨rfl, rfl, nothing⟩ := o.of_fresh task call
        refine .dropped outcome ?_ (o.filters ▸ judged) (by rw [nothing, put, List.append_nil])
        rw [tasks, List.getElem?_set_self there]
  | offer e task tasks channel schedule filters =>
      have there : t < w.tasks.length := by
        obtain task | ⟨_, _, task, -⟩ := task <;> exact (List.getElem?_eq_some_iff.1 task).1
      have own (c : Call) (set : (Cooperative.run w t).tasks = w.tasks.set t c) :
          (Cooperative.run w t).tasks[t]? = some c := by
        rw [set, List.getElem?_set_self there]
      obtain ⟨closed, -⟩ | ⟨-, room, offered⟩ | ⟨-, waits, offered⟩ | ⟨-, new, full, offered⟩ :=
        w.channel.offer_cases t e
      · cases unclosed.symm.trans closed
      · rw [offered] at tasks channel
        obtain ⟨sound, unqueued, ungranted⟩ := o.channel.put room e
        have once : puts t w (.move t) = [e] := by
          rw [put, channel]
          exact List.drop_left
        refine o.turn there tasks schedule filters (channel ▸ sound) ?_ ?_ ?_ ?_
        · intro u other
          simp [channel, Channel.put, List.mem_erase_of_ne other]
        · rw [channel]
          exact fun u given =>
            ⟨List.mem_of_mem_erase given, fun here => ungranted (here ▸ given)⟩
        · rw [channel]
          exact fun place => ((List.mem_append.1 place).elim unqueued ungranted).elim
        · intro gvk n call
          obtain ⟨judged, nothing⟩ := o.of_offering task call
          exact .passed e (own _ tasks) judged (by rw [nothing, once, List.nil_append])
      · rw [offered] at tasks channel
        rw [channel, List.drop_length] at put
        refine o.turn there tasks schedule filters (channel ▸ o.channel)
          (fun _ _ => by rw [channel]) ?_ (fun _ => ⟨e, rfl⟩) ?_
        · rw [channel]
          exact fun u given => ⟨given, fun here =>
            (List.nodup_append.1 o.channel.nodup).2.2 t waits t (here ▸ given) rfl⟩
        · intro gvk n call
          obtain ⟨judged, nothing⟩ := o.of_offering task call
          exact .sending e (own _ tasks) judged (by rw [nothing, put, List.append_nil])
            (channel ▸ List.mem_append_left _ waits)
      · rw [offered] at tasks channel
        rw [channel, List.drop_length] at put
        refine o.turn there tasks schedule filters (channel ▸ o.channel.wait new full) ?_ ?_
          (fun _ => ⟨e, rfl⟩) ?_
        · intro u other
          simp [channel, other]
        · rw [channel]
          exact fun u given => ⟨given, fun here => new.1 (here ▸ given)⟩
        · intro gvk n call
          obtain ⟨judged, nothing⟩ := o.of_offering task call
          exact .sending e (own _ tasks) judged (by rw [nothing, put, List.append_nil])
            (by simp [channel])

theorem Orderly.quiet (o : Orderly table past w) (none : calls [(w, h)] = [])
    (silent : ∀ u, puts u w h = []) (tasks : w'.tasks = w.tasks) (filters : w'.table = w.table)
    (keeps : w.schedule.Keeps w'.schedule) (channel : w'.channel.Sound)
    (places : ∀ u, u ∈ w'.channel.waiting ++ w'.channel.granted ↔
      u ∈ w.channel.waiting ++ w.channel.granted)
    (granted : ∀ u ∈ w'.channel.granted, u ∈ w'.schedule.ready) :
    Orderly table (past ++ [(w, h)]) w' := by
  have same : calls (past ++ [(w, h)]) = calls past := by
    rw [calls_append, none, List.append_nil]
  have put (u : TaskId) : putBy u (past ++ [(w, h)]) = putBy u past := by
    rw [putBy_append, silent, List.append_nil]
  refine ⟨filters.trans o.filters, by rw [tasks, same, o.length], channel, ?_, granted, ?_, ?_⟩
  · intro u place
    rw [tasks]
    exact o.senders u ((places u).1 place)
  · intro u gvk n call
    rw [put]
    exact (o.fates u gvk n (same ▸ call)).keep (by rw [tasks]) (fun _ => keeps u) (places u).2
  · exact fun u unborn => (put u).trans (o.unborn u (same ▸ unborn))

theorem Orderly.handle (o : Orderly table past w) (gvk : Gvk) (n : Notification) :
    Orderly table (past ++ [(w, Happening.command (Command.handle gvk n))])
      (w.apply (.handle gvk n)) := by
  have more : calls (past ++ [(w, Happening.command (Command.handle gvk n))]) =
      calls past ++ [(gvk, n)] := by
    simp [calls]
  have put (u : TaskId) :
      putBy u (past ++ [(w, Happening.command (Command.handle gvk n))]) = putBy u past := by
    rw [putBy_append]
    exact List.append_nil _
  have old {u : TaskId} {c : Call} (task : w.tasks[u]? = some c) :
      (w.apply (.handle gvk n)).tasks[u]? = w.tasks[u]? :=
    List.getElem?_append_left (List.getElem?_eq_some_iff.1 task).1
  refine ⟨o.filters, ?_, o.channel, ?_, ?_, ?_, ?_⟩
  · rw [more]
    simp [apply, o.length]
  · intro u place
    obtain ⟨e, task⟩ := o.senders u place
    exact ⟨e, (old task).trans task⟩
  · exact fun u given => Schedule.mem_wake.2 (.inl (o.granted u given))
  · intro u gvk' n' call
    rw [put]
    rw [more] at call
    by_cases born : u < (calls past).length
    · rw [List.getElem?_append_left born] at call
      refine (o.fates u gvk' n' call).keep ?_ (fun _ ready => Schedule.mem_wake.2 (.inl ready)) id
      exact List.getElem?_append_left (o.length ▸ born)
    · obtain ⟨new, rfl, rfl⟩ : u = (calls past).length ∧ gvk = gvk' ∧ n = n' := by
        rw [List.getElem?_append_right (Nat.not_lt.1 born), List.getElem?_singleton] at call
        split at call
        next first =>
          have last := Nat.le_antisymm (Nat.sub_eq_zero_iff_le.1 first) (Nat.not_lt.1 born)
          simpa [last] using call
        next => cases call
      refine .fresh ?_ (Schedule.mem_wake.2 (.inr (new.trans o.length.symm))) ?_
      · rw [new, ← o.length]
        simp [apply]
      · exact o.unborn u (List.getElem?_eq_none_iff.2 (Nat.not_lt.1 born))
  · intro u unborn
    rw [put]
    rw [more, List.getElem?_eq_none_iff, List.length_append] at unborn
    exact o.unborn u (List.getElem?_eq_none_iff.2 (by omega))

theorem Orderly.receive (o : Orderly table past w) :
    Orderly table (past ++ [(w, Happening.command Command.receive)]) (w.apply .receive) := by
  show Orderly table _ w.receive
  rw [DispatchWorld.receive]
  split
  next e channel woken received =>
    obtain ⟨sound, places, given⟩ := o.channel.receive received
    cases woken with
    | none =>
        refine o.quiet rfl (fun _ => rfl) rfl rfl (.refl _) sound places ?_
        exact fun u there => o.granted u ((given u there).resolve_right nofun)
    | some t =>
        refine o.quiet rfl (fun _ => rfl) rfl rfl (Schedule.keeps_wake _ t) sound places ?_
        intro u there
        refine Schedule.mem_wake.2 ((given u there).imp (o.granted u) fun same => ?_)
        exact (Option.some.inj same).symm
  next =>
    exact o.quiet rfl (fun _ => rfl) rfl rfl (.refl _) o.channel (fun _ => Iff.rfl) o.granted

/-- What happens while the channel is open keeps everything in order. -/
theorem Orderly.after (o : Orderly table past w) (h : Happening Command)
    (unclosed : w.channel.closed = false) (still : (conduct.after w h).channel.closed = false) :
    Orderly table (past ++ [(w, h)]) (conduct.after w h) := by
  cases h with
  | move t => exact o.move unclosed t
  | elapse time =>
      have keeps := Schedule.keeps_elapse w.schedule time
      exact o.quiet rfl (fun _ => rfl) rfl rfl keeps o.channel (fun _ => Iff.rfl)
        fun u given => keeps u (o.granted u given)
  | command c =>
      cases c with
      | handle gvk n => exact o.handle gvk n
      | receive => exact o.receive
      | drop => cases still
      | close => cases still
      | drain | look =>
          exact o.quiet rfl (fun _ => rfl) rfl rfl (.refl _) o.channel (fun _ => Iff.rfl) o.granted

theorem closed_after (h : Happening Command) (closed : w.channel.closed = true) :
    (conduct.after w h).channel.closed = true := by
  cases h with
  | move t =>
      show (Cooperative.run w t).channel.closed = true
      cases moved_run w t with
      | nothing _ _ same => rw [same]; exact closed
      | drop _ _ _ _ _ _ channel => rw [channel]; exact closed
      | offer e _ _ channel =>
          rw [channel, Channel.offer, if_pos closed]
          exact closed
  | elapse time => exact closed
  | command c =>
      cases c with
      | handle | drain | look => exact closed
      | receive =>
          show w.receive.channel.closed = true
          rw [DispatchWorld.receive]
          split
          next e channel woken received =>
            have same := (Path.receive?_closed received).trans closed
            cases woken <;> exact same
          next => exact closed
      | drop | close => rfl

/-- While the channel is open and nothing can move, a call has ended unless the channel is
full and the call waits for room. -/
theorem Orderly.ended_or_full (o : Orderly table past w) (idle : Cooperative.Idle w)
    (call : (calls past)[t]? = some (gvk, n)) :
    (∃ outcome, w.tasks[t]? = some (.ended outcome)) ∨
      ∃ e, w.tasks[t]? = some (.sending e) ∧ (table.judge gvk n).1 = .forward e ∧
        w.channel.capacity ≤ w.channel.buffer.length := by
  have rests (u : TaskId) : u ∉ w.schedule.ready := by
    rw [show w.schedule.ready = [] from idle]
    exact List.not_mem_nil
  cases o.fates t gvk n call with
  | fresh task ready => exact absurd ready (rests t)
  | dropped outcome task => exact .inl ⟨outcome, task⟩
  | passed e task => exact .inl ⟨_, task⟩
  | sending e task judged _ stands =>
      have ungranted : w.channel.granted = [] :=
        List.eq_nil_iff_forall_not_mem.2 fun u given => rests u (o.granted u given)
      rw [ungranted, List.append_nil] at stands
      have full := o.channel.full (List.ne_nil_of_mem stands)
      rw [ungranted] at full
      exact .inr ⟨e, task, judged, full⟩

/-- As long as the channel is open, all calls of a run stand as they should. -/
theorem orderly_of_run {capacity : Nat} (run : conduct.Run (start table capacity) past w)
    (unclosed : w.channel.closed = false) : Orderly table past w := by
  induction run with
  | start => exact .start table capacity
  | next run possible ih =>
      have before := Bool.eq_false_iff.2 fun closed =>
        Bool.eq_false_iff.1 unclosed (closed_after _ closed)
      exact (ih before).after _ before unclosed

end DispatchWorld

end ResourceWatch
