import ResourceWatch.Proofs.Dispatch

/-!
# What calls do to the channel

Calls go on one at a time. A call that goes on for the first time begins: its notification
is judged, and a change that is to be passed on is offered to the channel. It then enters
the channel, or is turned away because the channel is closed, or waits for room.

The channel never promises more room than it has. Which calls have begun, and which changes
have entered the channel, can be read off the calls at any moment of a run, also after the
channel was closed.
-/

namespace ResourceWatch

def Verdict.change? : Verdict → Option ChangeEvent
  | .forward e => some e
  | .drop _ => none

theorem Verdict.change?_eq_some {v : Verdict} {e : ChangeEvent} :
    v.change? = some e ↔ v = .forward e := by
  cases v <;> simp [change?]

namespace DispatchWorld

variable {w w' w₀ : DispatchWorld} {past : Past DispatchWorld Command} {table : FilterTable}
  {capacity : Nat} {t u : TaskId} {e : ChangeEvent} {h : Happening Command} {gvk : Gvk}
  {n : Notification}

def Call.isFresh : Call → Bool
  | .fresh .. => true
  | .sending _ | .ended _ => false

def begins (w : DispatchWorld) : Happening Command → List TaskId
  | .move t => if w.tasks[t]?.any Call.isFresh then [t] else []
  | _ => []

/-- The calls that have begun, the first one first. -/
def begun (past : Past DispatchWorld Command) : List TaskId :=
  past.flatMap fun (w, h) => begins w h

/-- What enters the channel when something happens, and from which call. -/
def enters (w : DispatchWorld) : Happening Command → List (TaskId × ChangeEvent)
  | .move t => (puts t w (.move t)).map (t, ·)
  | _ => []

/-- What has entered the channel, the first change first, each with its call. -/
def entries (past : Past DispatchWorld Command) : List (TaskId × ChangeEvent) :=
  past.flatMap fun (w, h) => enters w h

def change? (table : FilterTable) (past : Past DispatchWorld Command) (t : TaskId) :
    Option ChangeEvent :=
  (calls past)[t]?.bind fun (gvk, n) => (table.judge gvk n).1.change?

theorem change?_eq_some : change? table past t = some e ↔
    ∃ gvk n, (calls past)[t]? = some (gvk, n) ∧ (table.judge gvk n).1 = .forward e := by
  simp only [change?, Option.bind_eq_some_iff, Verdict.change?_eq_some, Prod.exists]

@[simp] theorem begun_append (past : Past DispatchWorld Command) (w : DispatchWorld)
    (h : Happening Command) : begun (past ++ [(w, h)]) = begun past ++ begins w h := by
  simp [begun]

@[simp] theorem entries_append (past : Past DispatchWorld Command) (w : DispatchWorld)
    (h : Happening Command) : entries (past ++ [(w, h)]) = entries past ++ enters w h := by
  simp [entries]

/-- A call that goes on offers a change. -/
def Offers (w : DispatchWorld) (t : TaskId) (e : ChangeEvent) : Prop :=
  w.tasks[t]? = some (.sending e) ∨
    ∃ gvk n, w.tasks[t]? = some (.fresh gvk n) ∧ (w.table.judge gvk n).1 = .forward e

/-- What going on amounts to for a call: where it stands then, and what becomes of the
channel. -/
inductive Turn (w : DispatchWorld) (t : TaskId) (w' : DispatchWorld) :
    List (TaskId × ChangeEvent) → Prop where
  /-- There is no such call, or it has ended. -/
  | rests (fresh : ∀ gvk n, w.tasks[t]? ≠ some (.fresh gvk n))
      (sending : ∀ e, w.tasks[t]? ≠ some (.sending e))
      (tasks : w'.tasks = w.tasks) (channel : w'.channel = w.channel) : Turn w t w' []
  /-- Its notification is dropped. -/
  | drops (gvk : Gvk) (n : Notification) (outcome : DispatchOutcome)
      (task : w.tasks[t]? = some (.fresh gvk n)) (judged : (w.table.judge gvk n).1 = .drop outcome)
      (tasks : w'.tasks = w.tasks.set t (.ended outcome)) (channel : w'.channel = w.channel) :
      Turn w t w' []
  /-- It is turned away. -/
  | refused (e : ChangeEvent) (offers : w.Offers t e) (closed : w.channel.closed = true)
      (tasks : w'.tasks = w.tasks.set t (.ended .closed))
      (channel : w'.channel = { w.channel with granted := w.channel.granted.erase t }) :
      Turn w t w' []
  /-- Its change enters the channel. -/
  | enters (e : ChangeEvent) (offers : w.Offers t e) (unclosed : w.channel.closed = false)
      (room : t ∈ w.channel.granted ∨ (t ∉ w.channel.waiting ∧ 0 < w.channel.room))
      (tasks : w'.tasks = w.tasks.set t (.ended .forwarded))
      (channel : w'.channel = { w.channel with granted := w.channel.granted.erase t }.put e) :
      Turn w t w' [(t, e)]
  /-- It still waits for room. -/
  | waits (e : ChangeEvent) (offers : w.Offers t e) (unclosed : w.channel.closed = false)
      (there : t ∈ w.channel.waiting) (tasks : w'.tasks = w.tasks.set t (.sending e))
      (channel : w'.channel = w.channel) : Turn w t w' []
  /-- It begins to wait for room. -/
  | queues (e : ChangeEvent) (offers : w.Offers t e) (unclosed : w.channel.closed = false)
      (new : t ∉ w.channel.granted ∧ t ∉ w.channel.waiting) (full : w.channel.room = 0)
      (tasks : w'.tasks = w.tasks.set t (.sending e))
      (channel : w'.channel = { w.channel with waiting := w.channel.waiting ++ [t] }) :
      Turn w t w' []

theorem turn_run (w : DispatchWorld) (t : TaskId) :
    Turn w t (Cooperative.run w t) (enters w (.move t)) := by
  have put (rest : List ChangeEvent)
      (buffer : (Cooperative.run w t).channel.buffer = w.channel.buffer ++ rest) :
      enters w (.move t) = rest.map (t, ·) := by
    rw [enters, puts_move, buffer, List.drop_left]
  have none (buffer : (Cooperative.run w t).channel.buffer = w.channel.buffer) :
      enters w (.move t) = [] := put [] (by rw [buffer, List.append_nil])
  cases moved_run w t with
  | nothing fresh sending same =>
      rw [none (by rw [same])]
      exact .rests fresh sending (by rw [same]) (by rw [same])
  | drop gvk n outcome task judged tasks channel =>
      rw [none (by rw [channel])]
      exact .drops gvk n outcome task judged tasks channel
  | offer e task tasks channel =>
      obtain ⟨closed, offered⟩ | ⟨unclosed, room, offered⟩ | ⟨unclosed, there, offered⟩ |
        ⟨unclosed, new, full, offered⟩ := w.channel.offer_cases t e
      all_goals rw [offered] at tasks channel
      · rw [none (by rw [channel])]
        exact .refused e task closed tasks channel
      · rw [put [e] (by rw [channel]; rfl)]
        exact .enters e task unclosed room tasks channel
      · rw [none (by rw [channel])]
        exact .waits e task unclosed there tasks channel
      · rw [none (by rw [channel])]
        exact .queues e task unclosed new full tasks channel

/-- What a call leaves alone when it goes on. -/
theorem run_frame (w : DispatchWorld) (t : TaskId) :
    (Cooperative.run w t).table = w.table ∧ (Cooperative.run w t).received = w.received ∧
      (Cooperative.run w t).schedule = w.schedule.rest t := by
  have sends (w : DispatchWorld) (e : ChangeEvent) : (w.send t e).table = w.table ∧
      (w.send t e).received = w.received ∧ (w.send t e).schedule = w.schedule := by
    rw [send]
    rcases w.channel.offer t e with ⟨c, _ | _ | _⟩ <;> exact ⟨rfl, rfl, rfl⟩
  have acts : (w.act t).1.table = w.table ∧ (w.act t).1.received = w.received ∧
      (w.act t).1.schedule = w.schedule := by
    rw [act]
    split
    next gvk n task =>
      obtain ⟨history, noted⟩ := foldl_note (w.table.judge gvk n).2 w
      dsimp only
      rw [noted]
      split
      · exact ⟨rfl, rfl, rfl⟩
      · exact sends _ _
    next => exact sends _ _
    next => exact ⟨rfl, rfl, rfl⟩
  rw [run_eq]
  exact ⟨acts.1, acts.2.1, congrArg (Schedule.rest · t) acts.2.2⟩

/-- Only the call that goes on moves, and it has begun then. -/
theorem run_tasks (w : DispatchWorld) (t : TaskId) :
    (Cooperative.run w t).tasks.length = w.tasks.length ∧
      (∀ u, u ≠ t → (Cooperative.run w t).tasks[u]? = w.tasks[u]?) ∧
      (Cooperative.run w t).tasks[t]?.any Call.isFresh = false := by
  have set {c : Call} (begun : c.isFresh = false)
      (tasks : (Cooperative.run w t).tasks = w.tasks.set t c) :
      (Cooperative.run w t).tasks.length = w.tasks.length ∧
        (∀ u, u ≠ t → (Cooperative.run w t).tasks[u]? = w.tasks[u]?) ∧
        (Cooperative.run w t).tasks[t]?.any Call.isFresh = false := by
    rw [tasks]
    refine ⟨List.length_set, fun u other => List.getElem?_set_ne (Ne.symm other), ?_⟩
    rw [List.getElem?_set_self']
    cases w.tasks[t]? with
    | none => rfl
    | some => exact begun
  have turn := turn_run w t
  generalize enters w (.move t) = put at turn
  cases turn with
  | drops _ _ _ _ _ tasks | refused _ _ _ tasks | enters _ _ _ _ tasks => exact set rfl tasks
  | waits _ _ _ _ tasks | queues _ _ _ _ _ tasks => exact set rfl tasks
  | rests fresh sending tasks =>
      refine ⟨by rw [tasks], fun _ _ => by rw [tasks], ?_⟩
      rw [tasks]
      cases task : w.tasks[t]? with
      | none => rfl
      | some c =>
          cases c with
          | fresh gvk n => exact absurd task (fresh gvk n)
          | sending | ended => rfl

/-- Where a call stands, and why. -/
inductive Stands (table : FilterTable) (past : Past DispatchWorld Command) (w : DispatchWorld)
    (t : TaskId) : Call → Prop where
  /-- It has not begun, and can. -/
  | fresh (gvk : Gvk) (n : Notification) (call : (calls past)[t]? = some (gvk, n))
      (ready : t ∈ w.schedule.ready) : Stands table past w t (.fresh gvk n)
  /-- It waits for room, or was given some, or is about to be turned away. -/
  | sending (e : ChangeEvent) (change : change? table past t = some e)
      (queued : w.channel.closed = false → t ∈ w.channel.waiting ++ w.channel.granted)
      (ready : w.channel.closed = true → t ∈ w.schedule.ready) :
      Stands table past w t (.sending e)
  /-- Its notification was dropped. -/
  | dropped (gvk : Gvk) (n : Notification) (outcome : DispatchOutcome)
      (call : (calls past)[t]? = some (gvk, n)) (judged : (table.judge gvk n).1 = .drop outcome) :
      Stands table past w t (.ended outcome)
  /-- Its change was passed on. -/
  | passed (e : ChangeEvent) (change : change? table past t = some e) :
      Stands table past w t (.ended .forwarded)
  /-- Its change was turned away. -/
  | refused (e : ChangeEvent) (change : change? table past t = some e)
      (closed : w.channel.closed = true) : Stands table past w t (.ended .closed)

/-- The calls stand as they should, and what has entered the channel came from them. -/
structure Kept (table : FilterTable) (capacity : Nat) (past : Past DispatchWorld Command)
    (w : DispatchWorld) : Prop where
  filters : w.table = table
  size : w.channel.capacity = capacity
  length : w.tasks.length = (calls past).length
  sound : w.channel.Sound
  bounded : w.channel.buffer.length + w.channel.granted.length ≤ capacity
  shut : w.channel.closed = true → w.channel.waiting = []
  granted : ∀ u ∈ w.channel.granted, u ∈ w.schedule.ready
  senders : ∀ u ∈ w.channel.waiting ++ w.channel.granted, ∃ e, w.tasks[u]? = some (.sending e)
  stands : ∀ u c, w.tasks[u]? = some c → Stands table past w u c
  entered : ∀ u e, (u, e) ∈ entries past ↔
    w.tasks[u]? = some (.ended .forwarded) ∧ change? table past u = some e
  once : ((entries past).map Prod.fst).Nodup
  began : ∀ u, u ∈ begun past ↔ ∃ c, w.tasks[u]? = some c ∧ c.isFresh = false
  nodup : (begun past).Nodup

theorem Kept.start (table : FilterTable) (capacity : Nat) :
    Kept table capacity [] (start table capacity) where
  filters := rfl
  size := rfl
  length := rfl
  sound := ⟨.nil, by simp [DispatchWorld.start]⟩
  bounded := Nat.zero_le _
  shut _ := rfl
  granted := by simp [DispatchWorld.start]
  senders := by simp [DispatchWorld.start]
  stands := by simp [DispatchWorld.start]
  entered := by simp [DispatchWorld.start, entries]
  once := .nil
  began := by simp [DispatchWorld.start, begun]
  nodup := .nil

theorem begins_move {c : Call} (task : w.tasks[t]? = some c) :
    begins w (.move t) = if c.isFresh then [t] else [] := by
  rw [begins, task]
  rfl

theorem calls_move (past : Past DispatchWorld Command) (w : DispatchWorld) (t : TaskId) :
    calls (past ++ [(w, Happening.move t)]) = calls past := by
  simp [calls]

theorem Stands.keep {past' : Past DispatchWorld Command} {c : Call} (h : Stands table past w t c)
    (same : (calls past')[t]? = (calls past)[t]?)
    (closed : w'.channel.closed = w.channel.closed)
    (ready : (∀ o, c ≠ .ended o) → t ∈ w.schedule.ready → t ∈ w'.schedule.ready)
    (queued : t ∈ w.channel.waiting ++ w.channel.granted →
      t ∈ w'.channel.waiting ++ w'.channel.granted) : Stands table past' w' t c := by
  have change : change? table past' t = change? table past t := by rw [change?, change?, same]
  cases h with
  | fresh gvk n call there => exact .fresh gvk n (same.trans call) (ready (by simp) there)
  | sending e told place there =>
      exact .sending e (change.trans told) (fun unclosed => queued (place (closed ▸ unclosed)))
        fun shut => ready (by simp) (there (closed ▸ shut))
  | dropped gvk n outcome call judged => exact .dropped gvk n outcome (same.trans call) judged
  | passed e told => exact .passed e (change.trans told)
  | refused e told shut => exact .refused e (change.trans told) (closed.trans shut)

/-- A call has gone on, and has moved from one standing to another. -/
theorem Kept.turn (k : Kept table capacity past w) {c c' : Call} (task : w.tasks[t]? = some c)
    (unended : ∀ o, c ≠ .ended o) (begins : c'.isFresh = false)
    (tasks : w'.tasks = w.tasks.set t c') (filters : w'.table = w.table)
    (schedule : w'.schedule = w.schedule.rest t)
    (closed : w'.channel.closed = w.channel.closed)
    (size : w'.channel.capacity = w.channel.capacity) (sound : w'.channel.Sound)
    (bounded : w'.channel.buffer.length + w'.channel.granted.length ≤ capacity)
    (shut : w'.channel.closed = true → w'.channel.waiting = [])
    (granted : ∀ u ∈ w'.channel.granted, u ∈ w.channel.granted ∧ u ≠ t)
    (others : ∀ u, u ≠ t → (u ∈ w'.channel.waiting ++ w'.channel.granted ↔
      u ∈ w.channel.waiting ++ w.channel.granted))
    (own : t ∈ w'.channel.waiting ++ w'.channel.granted → ∃ e, c' = .sending e)
    (stands : Stands table past w' t c')
    (entered : ∀ u e, (u, e) ∈ enters w (.move t) ↔
      u = t ∧ c' = .ended .forwarded ∧ change? table past t = some e)
    (once : ((enters w (.move t)).map Prod.fst).Nodup) :
    Kept table capacity (past ++ [(w, Happening.move t)]) w' := by
  have there : t < w.tasks.length := (List.getElem?_eq_some_iff.1 task).1
  have mine : w'.tasks[t]? = some c' := by rw [tasks, List.getElem?_set_self there]
  have theirs (u : TaskId) (other : u ≠ t) : w'.tasks[u]? = w.tasks[u]? := by
    rw [tasks, List.getElem?_set_ne (Ne.symm other)]
  have same := calls_move past w t
  have change (u : TaskId) :
      change? table (past ++ [(w, Happening.move t)]) u = change? table past u := by
    rw [change?, change?, same]
  have unentered (e : ChangeEvent) : (t, e) ∉ entries past := by
    intro before
    exact unended _ (Option.some.inj (task.symm.trans ((k.entered t e).1 before).1))
  refine ⟨filters.trans k.filters, size.trans k.size, ?_, sound, bounded, shut, ?_, ?_, ?_, ?_,
    ?_, ?_, ?_⟩
  · rw [tasks, List.length_set, same, k.length]
  · intro u given
    obtain ⟨before, other⟩ := granted u given
    rw [schedule]
    exact Schedule.mem_rest_of_ne (k.granted u before) other
  · intro u place
    by_cases here : u = t
    · obtain ⟨e, rfl⟩ := own (here ▸ place)
      exact ⟨e, here ▸ mine⟩
    · rw [theirs u here]
      exact k.senders u ((others u here).1 place)
  · intro u d task'
    by_cases here : u = t
    · subst here
      obtain rfl := Option.some.inj (mine.symm.trans task')
      exact stands.keep (by rw [same]) rfl (fun _ => id) id
    · exact (k.stands u d ((theirs u here).symm.trans task')).keep (by rw [same]) closed
        (fun _ ready => schedule ▸ Schedule.mem_rest_of_ne ready here) (others u here).2
  · intro u e
    rw [entries_append, List.mem_append, entered, change]
    by_cases here : u = t
    · subst here
      simp [unentered, mine]
    · simp [here, theirs u here, k.entered]
  · rw [entries_append, List.map_append]
    refine List.nodup_append.2 ⟨k.once, once, ?_⟩
    intro u before v now
    obtain ⟨⟨u, e⟩, early, rfl⟩ := List.mem_map.1 before
    obtain ⟨⟨v, e'⟩, late, rfl⟩ := List.mem_map.1 now
    obtain ⟨rfl, -⟩ := (entered v e').1 late
    rintro rfl
    exact unentered e early
  · intro u
    rw [begun_append, List.mem_append, k.began, begins_move task]
    by_cases here : u = t
    · subst here
      cases unbegun : c.isFresh <;> simp [task, mine, begins, unbegun]
    · rw [theirs u here]
      cases c.isFresh <;> simp [here]
  · rw [begun_append, begins_move task]
    cases unbegun : c.isFresh with
    | false => simpa using k.nodup
    | true =>
        have new : t ∉ begun past := by
          rw [k.began]
          rintro ⟨d, task', begun'⟩
          cases task.symm.trans task'
          exact absurd unbegun (by simp [begun'])
        refine List.nodup_append.2 ⟨k.nodup, List.nodup_singleton t, ?_⟩
        rintro u there v last rfl
        exact new (List.mem_singleton.1 last ▸ there)

/-- Nothing is called, no call goes on, and the channel keeps what it was offered. -/
theorem Kept.quiet (k : Kept table capacity past w) (uncalled : calls [(w, h)] = [])
    (unbegun : begins w h = []) (unentered : enters w h = []) (tasks : w'.tasks = w.tasks)
    (filters : w'.table = w.table)
    (ready : ∀ u c, w.tasks[u]? = some c → (∀ o, c ≠ .ended o) → u ∈ w.schedule.ready →
      u ∈ w'.schedule.ready)
    (closed : w'.channel.closed = w.channel.closed)
    (size : w'.channel.capacity = w.channel.capacity) (sound : w'.channel.Sound)
    (bounded : w'.channel.buffer.length + w'.channel.granted.length ≤ capacity)
    (shut : w'.channel.closed = true → w'.channel.waiting = [])
    (granted : ∀ u ∈ w'.channel.granted, u ∈ w'.schedule.ready)
    (places : ∀ u, u ∈ w'.channel.waiting ++ w'.channel.granted ↔
      u ∈ w.channel.waiting ++ w.channel.granted) :
    Kept table capacity (past ++ [(w, h)]) w' := by
  have same : calls (past ++ [(w, h)]) = calls past := by
    rw [calls_append, uncalled, List.append_nil]
  have change (u : TaskId) : change? table (past ++ [(w, h)]) u = change? table past u := by
    rw [change?, change?, same]
  have entries_eq : entries (past ++ [(w, h)]) = entries past := by
    rw [entries_append, unentered, List.append_nil]
  have begun_eq : begun (past ++ [(w, h)]) = begun past := by
    rw [begun_append, unbegun, List.append_nil]
  refine ⟨filters.trans k.filters, size.trans k.size, ?_, sound, bounded, shut, granted, ?_, ?_,
    ?_, entries_eq ▸ k.once, ?_, begun_eq ▸ k.nodup⟩
  · rw [tasks, same, k.length]
  · intro u place
    rw [tasks]
    exact k.senders u ((places u).1 place)
  · intro u c task
    have task : w.tasks[u]? = some c := tasks ▸ task
    exact (k.stands u c task).keep (by rw [same]) closed (ready u c task) (places u).2
  · intro u e
    rw [entries_eq, tasks, change, k.entered]
  · intro u
    rw [begun_eq, tasks, k.began]

/-- A call that has not ended is not granted room twice, and what it offers is what its
notification amounts to. -/
theorem Kept.offered (k : Kept table capacity past w) (offers : w.Offers t e) :
    (∃ c, w.tasks[t]? = some c ∧ ∀ o, c ≠ .ended o) ∧ change? table past t = some e := by
  obtain task | ⟨gvk, n, task, judged⟩ := offers
  · refine ⟨⟨_, task, by simp⟩, ?_⟩
    cases k.stands t _ task with
    | sending _ change => exact change
  · refine ⟨⟨_, task, by simp⟩, ?_⟩
    cases k.stands t _ task with
    | fresh _ _ call => exact change?_eq_some.2 ⟨gvk, n, call, k.filters ▸ judged⟩

section Going

/-! ### A call that goes on -/

/-- It has ended, or is none. -/
theorem Kept.of_rests (k : Kept table capacity past w)
    (fresh : ∀ gvk n, w.tasks[t]? ≠ some (.fresh gvk n))
    (sending : ∀ e, w.tasks[t]? ≠ some (.sending e)) (entered : enters w (.move t) = [])
    (tasks : (Cooperative.run w t).tasks = w.tasks)
    (channel : (Cooperative.run w t).channel = w.channel) :
    Kept table capacity (past ++ [(w, Happening.move t)]) (Cooperative.run w t) := by
  obtain ⟨filters, -, schedule⟩ := run_frame w t
  have unended {u : TaskId} {c : Call} (task : w.tasks[u]? = some c)
      (unended : ∀ o, c ≠ .ended o) : u ≠ t := by
    rintro rfl
    cases c with
    | fresh gvk n => exact fresh gvk n task
    | sending e => exact sending e task
    | ended o => exact unended o rfl
  have unbegun : begins w (.move t) = [] := by
    rw [begins]
    cases task : w.tasks[t]? with
    | none => rfl
    | some c =>
        cases c with
        | fresh gvk n => exact absurd task (fresh gvk n)
        | sending | ended => rfl
  refine k.quiet (by simp [calls]) unbegun entered tasks filters ?_ (by rw [channel])
    (by rw [channel]) (channel ▸ k.sound) (channel ▸ k.bounded) (channel ▸ k.shut) ?_
    (by simp [channel])
  · intro u c task going ready
    exact schedule ▸ Schedule.mem_rest_of_ne ready (unended task going)
  · rw [channel, schedule]
    intro u given
    obtain ⟨e, sends⟩ := k.senders u (List.mem_append_right _ given)
    exact Schedule.mem_rest_of_ne (k.granted u given) (unended sends (by simp))

/-- Its notification is dropped. -/
theorem Kept.of_drops (k : Kept table capacity past w) {outcome : DispatchOutcome}
    (task : w.tasks[t]? = some (.fresh gvk n)) (judged : (w.table.judge gvk n).1 = .drop outcome)
    (entered : enters w (.move t) = [])
    (tasks : (Cooperative.run w t).tasks = w.tasks.set t (.ended outcome))
    (channel : (Cooperative.run w t).channel = w.channel) :
    Kept table capacity (past ++ [(w, Happening.move t)]) (Cooperative.run w t) := by
  obtain ⟨filters, -, schedule⟩ := run_frame w t
  have out : t ∉ w.channel.waiting ++ w.channel.granted := by
    intro place
    obtain ⟨e, sends⟩ := k.senders t place
    cases task.symm.trans sends
  have called : (calls past)[t]? = some (gvk, n) := by
    cases k.stands t _ task with
    | fresh _ _ call => exact call
  refine k.turn task (by simp) rfl tasks filters schedule (by rw [channel]) (by rw [channel])
    (channel ▸ k.sound) (channel ▸ k.bounded) (channel ▸ k.shut) ?_ (by simp [channel])
    (fun place => absurd (channel ▸ place) out) ?_ ?_ (by simp [entered])
  · rw [channel]
    exact fun u given => ⟨given, fun here => out (List.mem_append_right _ (here ▸ given))⟩
  · exact .dropped gvk n outcome called (k.filters ▸ judged)
  · have unpassed : change? table past t = none := by
      rw [change?, called]
      exact congrArg Verdict.change? (k.filters ▸ judged)
    simp [entered, unpassed]

/-- It is turned away. -/
theorem Kept.of_refused (k : Kept table capacity past w) (offers : w.Offers t e)
    (closed : w.channel.closed = true) (entered : enters w (.move t) = [])
    (tasks : (Cooperative.run w t).tasks = w.tasks.set t (.ended .closed))
    (channel : (Cooperative.run w t).channel =
      { w.channel with granted := w.channel.granted.erase t }) :
    Kept table capacity (past ++ [(w, Happening.move t)]) (Cooperative.run w t) := by
  obtain ⟨filters, -, schedule⟩ := run_frame w t
  obtain ⟨⟨c, task, unended⟩, change⟩ := k.offered offers
  have unqueued := k.shut closed
  have out : t ∉ w.channel.granted.erase t := (List.nodup_append.1 k.sound.nodup).2.1.not_mem_erase
  refine k.turn task unended rfl tasks filters schedule (by rw [channel]) (by rw [channel])
    ?_ ?_ ?_ ?_ ?_ ?_ (.refused e change (by rw [channel]; exact closed)) (by simp [entered])
    (by simp [entered])
  all_goals rw [channel]
  · refine ⟨?_, fun waits => absurd unqueued waits⟩
    exact k.sound.nodup.sublist (List.erase_sublist.append_left _)
  · have := k.bounded
    have := List.length_erase_le (a := t) (l := w.channel.granted)
    dsimp only
    omega
  · exact fun _ => unqueued
  · exact fun u given => ⟨List.mem_of_mem_erase given, fun here => out (here ▸ given)⟩
  · exact fun u other => by simp [List.mem_erase_of_ne other]
  · rw [unqueued]
    exact fun place => absurd place out

/-- Its change enters the channel. -/
theorem Kept.of_enters (k : Kept table capacity past w) (offers : w.Offers t e)
    (unclosed : w.channel.closed = false)
    (room : t ∈ w.channel.granted ∨ (t ∉ w.channel.waiting ∧ 0 < w.channel.room))
    (entered : enters w (.move t) = [(t, e)])
    (tasks : (Cooperative.run w t).tasks = w.tasks.set t (.ended .forwarded))
    (channel : (Cooperative.run w t).channel =
      { w.channel with granted := w.channel.granted.erase t }.put e) :
    Kept table capacity (past ++ [(w, Happening.move t)]) (Cooperative.run w t) := by
  obtain ⟨filters, -, schedule⟩ := run_frame w t
  obtain ⟨⟨c, task, unended⟩, change⟩ := k.offered offers
  obtain ⟨sound, unqueued, ungranted⟩ := k.sound.put room e
  refine k.turn task unended rfl tasks filters schedule (by rw [channel]; rfl)
    (by rw [channel]; rfl) ?_ ?_ ?_ ?_ ?_ ?_ (.passed e change) ?_ (by simp [entered])
  · exact channel ▸ sound
  · have := k.bounded
    have size := k.size
    rw [channel]
    simp only [Channel.put, List.length_append, List.length_singleton]
    obtain given | ⟨-, room⟩ := room
    · have := List.length_erase_of_mem given
      have := List.length_pos_of_mem given
      omega
    · have := List.length_erase_le (a := t) (l := w.channel.granted)
      rw [Channel.room] at room
      omega
  · rw [channel]
    exact fun closed => absurd (unclosed.symm.trans closed) (by simp)
  · rw [channel]
    exact fun u given => ⟨List.mem_of_mem_erase given, fun here => ungranted (here ▸ given)⟩
  · intro u other
    simp [channel, Channel.put, List.mem_erase_of_ne other]
  · rw [channel]
    exact fun place => ((List.mem_append.1 place).elim unqueued ungranted).elim
  · simp [entered, change, eq_comm]

/-- It still waits for room. -/
theorem Kept.of_waits (k : Kept table capacity past w) (offers : w.Offers t e)
    (unclosed : w.channel.closed = false) (there : t ∈ w.channel.waiting)
    (entered : enters w (.move t) = [])
    (tasks : (Cooperative.run w t).tasks = w.tasks.set t (.sending e))
    (channel : (Cooperative.run w t).channel = w.channel) :
    Kept table capacity (past ++ [(w, Happening.move t)]) (Cooperative.run w t) := by
  obtain ⟨filters, -, schedule⟩ := run_frame w t
  obtain ⟨⟨c, task, unended⟩, change⟩ := k.offered offers
  have apart := (List.nodup_append.1 k.sound.nodup).2.2
  refine k.turn task unended rfl tasks filters schedule (by rw [channel]) (by rw [channel])
    (channel ▸ k.sound) (channel ▸ k.bounded) (channel ▸ k.shut) ?_ (by simp [channel])
    (fun _ => ⟨e, rfl⟩) ?_ (by simp [entered]) (by simp [entered])
  · rw [channel]
    exact fun u given => ⟨given, fun here => apart t there t (here ▸ given) rfl⟩
  · refine .sending e change (fun _ => ?_) fun closed => ?_
    · rw [channel]
      exact List.mem_append_left _ there
    · rw [channel, unclosed] at closed
      contradiction

/-- It begins to wait for room. -/
theorem Kept.of_queues (k : Kept table capacity past w) (offers : w.Offers t e)
    (unclosed : w.channel.closed = false)
    (new : t ∉ w.channel.granted ∧ t ∉ w.channel.waiting) (full : w.channel.room = 0)
    (entered : enters w (.move t) = [])
    (tasks : (Cooperative.run w t).tasks = w.tasks.set t (.sending e))
    (channel : (Cooperative.run w t).channel =
      { w.channel with waiting := w.channel.waiting ++ [t] }) :
    Kept table capacity (past ++ [(w, Happening.move t)]) (Cooperative.run w t) := by
  obtain ⟨filters, -, schedule⟩ := run_frame w t
  obtain ⟨⟨c, task, unended⟩, change⟩ := k.offered offers
  refine k.turn task unended rfl tasks filters schedule (by rw [channel]) (by rw [channel])
    (channel ▸ k.sound.wait new full) (channel ▸ k.bounded) ?_ ?_ ?_
    (fun _ => ⟨e, rfl⟩) ?_ (by simp [entered]) (by simp [entered])
  · rw [channel]
    exact fun closed => absurd (unclosed.symm.trans closed) (by simp)
  · rw [channel]
    exact fun u given => ⟨given, fun here => new.1 (here ▸ given)⟩
  · intro u other
    simp [channel, other]
  · refine .sending e change (fun _ => by simp [channel]) fun closed => ?_
    rw [channel] at closed
    exact absurd (unclosed.symm.trans closed) (by simp)

theorem Kept.move (k : Kept table capacity past w) (t : TaskId) :
    Kept table capacity (past ++ [(w, Happening.move t)]) (Cooperative.run w t) := by
  have turn := turn_run w t
  generalize entered : enters w (.move t) = put at turn
  cases turn with
  | rests fresh sending tasks channel => exact k.of_rests fresh sending entered tasks channel
  | drops gvk n outcome task judged tasks channel =>
      exact k.of_drops task judged entered tasks channel
  | refused e offers closed tasks channel => exact k.of_refused offers closed entered tasks channel
  | enters e offers unclosed room tasks channel =>
      exact k.of_enters offers unclosed room entered tasks channel
  | waits e offers unclosed there tasks channel =>
      exact k.of_waits offers unclosed there entered tasks channel
  | queues e offers unclosed new full tasks channel =>
      exact k.of_queues offers unclosed new full entered tasks channel

end Going

theorem Kept.handle (k : Kept table capacity past w) (gvk : Gvk) (n : Notification) :
    Kept table capacity (past ++ [(w, Happening.command (Command.handle gvk n))])
      (w.apply (.handle gvk n)) := by
  let past' := past ++ [(w, Happening.command (Command.handle gvk n))]
  have more : calls past' = calls past ++ [(gvk, n)] := by simp [past', calls]
  have tasks : (w.apply (.handle gvk n)).tasks = w.tasks ++ [.fresh gvk n] := rfl
  have old {u : TaskId} (born : u < w.tasks.length) :
      (calls past')[u]? = (calls past)[u]? ∧ change? table past' u = change? table past u ∧
        (w.apply (.handle gvk n)).tasks[u]? = w.tasks[u]? := by
    have same : (calls past')[u]? = (calls past)[u]? := by
      rw [more, List.getElem?_append_left (k.length ▸ born)]
    exact ⟨same, by rw [change?, change?, same], List.getElem?_append_left born⟩
  have newest {u : TaskId} {c : Call} (task : (w.apply (.handle gvk n)).tasks[u]? = some c)
      (unborn : ¬u < w.tasks.length) : u = w.tasks.length ∧ c = .fresh gvk n := by
    rw [tasks, List.getElem?_append_right (Nat.not_lt.1 unborn), List.getElem?_singleton] at task
    split at task
    next last =>
      have last := Nat.le_antisymm (Nat.sub_eq_zero_iff_le.1 last) (Nat.not_lt.1 unborn)
      exact ⟨last, (Option.some.inj task).symm⟩
    next => cases task
  have entries_eq : entries past' = entries past := by simp [past', enters]
  have begun_eq : begun past' = begun past := by simp [past', begins]
  refine ⟨k.filters, k.size, ?_, k.sound, k.bounded, k.shut, ?_, ?_, ?_, ?_, ?_, ?_, ?_⟩
  · rw [more, tasks, List.length_append, List.length_append, k.length]
    rfl
  · exact fun u given => Schedule.mem_wake.2 (.inl (k.granted u given))
  · intro u place
    obtain ⟨e, task⟩ := k.senders u place
    exact ⟨e, (old (List.getElem?_eq_some_iff.1 task).1).2.2.trans task⟩
  · intro u c task
    by_cases born : u < w.tasks.length
    · obtain ⟨called, -, same⟩ := old born
      exact (k.stands u c (same.symm.trans task)).keep called rfl
        (fun _ ready => Schedule.mem_wake.2 (.inl ready)) id
    · obtain ⟨rfl, rfl⟩ := newest task born
      refine .fresh gvk n ?_ (Schedule.mem_wake.2 (.inr rfl))
      rw [more, k.length]
      simp
  · rw [entries_eq]
    intro u e
    by_cases born : u < w.tasks.length
    · rw [k.entered, (old born).2.1, (old born).2.2]
    · refine iff_of_false (fun there => ?_) fun sent => ?_
      · exact born (List.getElem?_eq_some_iff.1 ((k.entered u e).1 there).1).1
      · cases (newest sent.1 born).2
  · rw [entries_eq]
    exact k.once
  · rw [begun_eq]
    intro u
    by_cases born : u < w.tasks.length
    · rw [k.began, (old born).2.2]
    · refine iff_of_false (fun there => ?_) ?_
      · obtain ⟨c, task, -⟩ := (k.began u).1 there
        exact born (List.getElem?_eq_some_iff.1 task).1
      · rintro ⟨c, task, begun'⟩
        obtain ⟨-, rfl⟩ := newest task born
        cases begun'
  · rw [begun_eq]
    exact k.nodup

theorem Kept.receive (k : Kept table capacity past w) :
    Kept table capacity (past ++ [(w, Happening.command Command.receive)]) (w.apply .receive) := by
  show Kept table capacity _ w.receive
  rw [DispatchWorld.receive]
  split
  next e channel woken received =>
    obtain ⟨sound, places, given⟩ := k.sound.receive received
    obtain ⟨rest, buffer, granting⟩ := Path.receive?_eq_some.1 received
    have bounded := k.bounded
    rw [buffer, List.length_cons] at bounded
    have shut := k.shut
    rw [Channel.grant] at granting
    have fits : channel.buffer.length + channel.granted.length ≤ capacity ∧
        channel.capacity = w.channel.capacity ∧ channel.closed = w.channel.closed ∧
        (channel.closed = true → channel.waiting = []) := by
      split at granting
      next none =>
        cases granting
        exact ⟨by dsimp only; omega, rfl, rfl, shut⟩
      next first rest waits =>
        cases granting
        refine ⟨by simp; omega, rfl, rfl, fun closed => ?_⟩
        cases (shut closed).symm.trans waits
    obtain ⟨bounded, size, closed, shut⟩ := fits
    cases woken with
    | none =>
        refine k.quiet rfl rfl rfl rfl rfl (fun _ _ _ _ => id) closed size sound bounded shut ?_
          places
        exact fun u there => k.granted u ((given u there).resolve_right (by simp))
    | some t =>
        refine k.quiet rfl rfl rfl rfl rfl (fun u _ _ _ => Schedule.keeps_wake _ t u) closed size
          sound bounded shut ?_ places
        intro u there
        refine Schedule.mem_wake.2 ((given u there).imp (k.granted u) fun same => ?_)
        exact (Option.some.inj same).symm
  next =>
    exact k.quiet rfl rfl rfl rfl rfl (fun _ _ _ _ => id) rfl rfl k.sound k.bounded k.shut
      k.granted fun _ => Iff.rfl

theorem Kept.shutting (k : Kept table capacity past w) {buffer : List ChangeEvent}
    {listener : Option TaskId} (shorter : buffer.length ≤ w.channel.buffer.length)
    (uncalled : calls [(w, h)] = []) (unbegun : begins w h = []) (unentered : enters w h = []) :
    Kept table capacity (past ++ [(w, h)])
      (w.withChannel ({ w.channel with
        closed := true, waiting := [], buffer, listener }, w.channel.waiting)) := by
  have same : calls (past ++ [(w, h)]) = calls past := by
    rw [calls_append, uncalled, List.append_nil]
  have change (u : TaskId) : change? table (past ++ [(w, h)]) u = change? table past u := by
    rw [change?, change?, same]
  have entries_eq : entries (past ++ [(w, h)]) = entries past := by
    rw [entries_append, unentered, List.append_nil]
  have begun_eq : begun (past ++ [(w, h)]) = begun past := by
    rw [begun_append, unbegun, List.append_nil]
  refine ⟨k.filters, k.size, same.symm ▸ k.length, ?_, ?_, fun _ => rfl, ?_, ?_, ?_,
    ?_, entries_eq ▸ k.once, begun_eq ▸ k.began, begun_eq ▸ k.nodup⟩
  · exact ⟨(List.nodup_append.1 k.sound.nodup).2.1, fun waits => absurd rfl waits⟩
  · exact Nat.le_trans (Nat.add_le_add_right shorter _) k.bounded
  · exact fun u given => Schedule.mem_wakeAll.2 (.inl (k.granted u given))
  · exact fun u given => k.senders u (List.mem_append_right _ given)
  · intro u c task
    have woken (ready : u ∈ w.schedule.ready) :
        u ∈ (w.schedule.wakeAll w.channel.waiting).ready := Schedule.mem_wakeAll.2 (.inl ready)
    cases k.stands u c task with
    | fresh gvk n call ready => exact .fresh gvk n (same.symm ▸ call) (woken ready)
    | dropped gvk n outcome call judged => exact .dropped gvk n outcome (same.symm ▸ call) judged
    | passed e told => exact .passed e ((change u).trans told)
    | refused e told => exact .refused e ((change u).trans told) rfl
    | sending e told queued ready =>
        refine .sending e ((change u).trans told) (fun unclosed => by cases unclosed) fun _ => ?_
        cases closed : w.channel.closed with
        | true => exact woken (ready closed)
        | false =>
            obtain waits | given := List.mem_append.1 (queued closed)
            · exact Schedule.mem_wakeAll.2 (.inr waits)
            · exact woken (k.granted u given)
  · intro u e
    rw [entries_eq, change, k.entered]
    rfl

theorem Kept.after (k : Kept table capacity past w) (h : Happening Command) :
    Kept table capacity (past ++ [(w, h)]) (conduct.after w h) := by
  cases h with
  | move t => exact k.move t
  | elapse time =>
      have keeps := Schedule.keeps_elapse w.schedule time
      exact k.quiet rfl rfl rfl rfl rfl (fun u _ _ _ => keeps u) rfl rfl k.sound k.bounded k.shut
        (fun u given => keeps u (k.granted u given)) fun _ => Iff.rfl
  | command c =>
      cases c with
      | handle gvk n => exact k.handle gvk n
      | receive => exact k.receive
      | close => exact k.shutting (Nat.le_refl _) rfl rfl rfl
      | drop => exact k.shutting (Nat.zero_le _) rfl rfl rfl
      | drain | look =>
          exact k.quiet rfl rfl rfl rfl rfl (fun _ _ _ _ => id) rfl rfl k.sound k.bounded k.shut
            k.granted fun _ => Iff.rfl

theorem kept_of_run (run : conduct.Run (start table capacity) past w) :
    Kept table capacity past w := by
  induction run with
  | start => exact .start table capacity
  | next _ _ ih => exact ih.after _

end DispatchWorld

end ResourceWatch
