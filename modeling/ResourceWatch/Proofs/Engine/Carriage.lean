import ResourceWatch.Proofs.Engine.Watchful

/-!
# What the channel carries

Between the pumps and the work queue a change is in the channel. `Engine.belt` is what
there is to this: what is in the channel, whether anything can still enter, and what is on
record of changes that entered and of keys that were handed over.

`Carries` says once what a task that goes on can do to the belt. A pump that is not to end
puts a change on it, the source takes one off and hands its key over, and a source that
stops lets go of the rest. Everybody else leaves it alone, and so does, as far as the
record goes, whatever is done from outside.
-/

namespace ResourceWatch

/-- Whether something that happened is about a change on its way to the work queue. -/
def Occurrence.isCarriage : Occurrence → Bool
  | .entered _ | .keyed _ => true
  | _ => false

/-- The key under which a change is handed over, if its object has one. -/
def ChangeEvent.key? (e : ChangeEvent) : Option String :=
  (ObjectKey.ofReference? e.reference).map ObjectKey.encode

def Source.Deed.key? : Source.Deed → Option String
  | .hand key => some key
  | _ => none

/-- The way of the changes from the pumps to the work queue. -/
structure Belt where
  /-- The changes in the channel, the first one first. -/
  buffer : List ChangeEvent
  /-- Whether changes enter no more. -/
  closed : Bool
  /-- What has entered, and what was handed over. -/
  carried : History

namespace Belt

def enter (b : Belt) (e : ChangeEvent) : Belt :=
  { b with buffer := b.buffer ++ [e], carried := b.carried ++ [.entered e] }

/-- A change is taken, which leaves the others, and its key is handed over. -/
def hand (b : Belt) (e : ChangeEvent) (rest : List ChangeEvent) : Belt :=
  { b with buffer := rest, carried := b.carried ++ e.key?.toList.map .keyed }

/-- Nothing enters any more, and what is there is let go of. -/
def stop (b : Belt) : Belt := { b with buffer := [], closed := true }

end Belt

namespace History

/-- What happened to changes on their way to the work queue. -/
def carried (h : History) : History := h.filter Occurrence.isCarriage

variable {h h' : History}

@[simp] theorem carried_append (h h' : History) :
    carried (h ++ h') = h.carried ++ carried h' := List.filter_append ..

theorem entered_append (h h' : History) : entered (h ++ h') = h.entered ++ entered h' :=
  List.filterMap_append ..

theorem keyed_append (h h' : History) : keyed (h ++ h') = h.keyed ++ keyed h' :=
  List.filterMap_append ..

theorem entered_carried (h : History) : entered h.carried = h.entered := by
  rw [entered, carried, List.filterMap_filter, entered]
  congr
  funext o
  cases o <;> rfl

theorem keyed_carried (h : History) : keyed h.carried = h.keyed := by
  rw [keyed, carried, List.filterMap_filter, keyed]
  congr
  funext o
  cases o <;> rfl

theorem entered_of_carried (same : h'.carried = h.carried) : h'.entered = h.entered := by
  rw [← entered_carried, same, entered_carried]

theorem keyed_of_carried (same : h'.carried = h.carried) : h'.keyed = h.keyed := by
  rw [← keyed_carried, same, keyed_carried]

end History

namespace Belt

variable {b : Belt} {e : ChangeEvent} {rest : List ChangeEvent}

/-- What has entered was handed over, up to what is in the channel. -/
def Balanced (b : Belt) : Prop :=
  ∃ taken, b.carried.entered = taken ++ b.buffer ∧
    b.carried.keyed = taken.filterMap ChangeEvent.key?

/-- All that has entered was handed over. -/
def Delivered (b : Belt) : Prop :=
  b.carried.keyed = b.carried.entered.filterMap ChangeEvent.key?

@[simp] theorem enter_entered (b : Belt) (e : ChangeEvent) :
    (b.enter e).carried.entered = b.carried.entered ++ [e] := History.entered_append ..

@[simp] theorem enter_keyed (b : Belt) (e : ChangeEvent) :
    (b.enter e).carried.keyed = b.carried.keyed :=
  (History.keyed_append ..).trans (List.append_nil _)

@[simp] theorem hand_entered (b : Belt) (e : ChangeEvent) (rest : List ChangeEvent) :
    (b.hand e rest).carried.entered = b.carried.entered := by
  refine (History.entered_append ..).trans ?_
  cases e.key? <;> exact List.append_nil _

@[simp] theorem hand_keyed (b : Belt) (e : ChangeEvent) (rest : List ChangeEvent) :
    (b.hand e rest).carried.keyed = b.carried.keyed ++ e.key?.toList := by
  refine (History.keyed_append ..).trans ?_
  cases e.key? <;> rfl

theorem Balanced.enter (h : b.Balanced) (e : ChangeEvent) : (b.enter e).Balanced := by
  obtain ⟨taken, entered, keyed⟩ := h
  refine ⟨taken, ?_, (enter_keyed b e).trans keyed⟩
  rw [enter_entered, entered, List.append_assoc]
  rfl

theorem Balanced.hand (h : b.Balanced) (next : b.buffer = e :: rest) :
    (b.hand e rest).Balanced := by
  obtain ⟨taken, entered, keyed⟩ := h
  refine ⟨taken ++ [e], ?_, ?_⟩
  · rw [hand_entered, entered, next, List.append_cons]
    rfl
  · rw [hand_keyed, keyed, List.filterMap_append]
    cases key : e.key? <;> simp [key]

/-- When nothing is in the channel, all is handed over. -/
theorem Balanced.delivered (h : b.Balanced) (empty : b.buffer = []) : b.Delivered := by
  obtain ⟨taken, entered, keyed⟩ := h
  rw [Delivered, keyed, entered, empty, List.append_nil]

end Belt

namespace Desk

theorem push_carried (d : Desk) (key : String) :
    (d.push key).history.carried = d.history.carried := by
  obtain same | same := d.push_history key
  · rw [same]
  · simp [same, History.carried, Occurrence.isCarriage]

theorem ask_history (d : Desk) (t : TaskId) : (d.ask t).1.history = d.history := by
  rw [ask]
  split
  · rfl
  · dsimp only
    split
    · rfl
    · split
      · rfl
      · split <;> rfl

end Desk

theorem DelayedPush.act_carried (d : Desk) (t : TaskId) (key : String) (push : DelayedPush) :
    (push.act d t key).1.history.carried = d.history.carried := by
  cases push with
  | fresh | pushed => rfl
  | sleeping due =>
      simp only [act]
      split
      · exact d.push_carried key
      · rfl

namespace Workshop

variable {s : Workshop} {key : String}

theorem note_carried {o : Occurrence} (aside : o.isCarriage = false) :
    (s.note o).history.carried = s.history.carried := by
  simp [note, Desk.note, History.carried, aside]

theorem logs_carried (s : Workshop) (events : List LogEvent) :
    (events.foldl log s).history.carried = s.history.carried := by
  induction events generalizing s with
  | nil => rfl
  | cons e events ih => exact (ih _).trans (note_carried rfl)

theorem enter_carried (s : Workshop) (key : String) (result : ReconcileResult) :
    (s.enter key result).1.history.carried = s.history.carried := by
  simp only [enter]
  split
  · rfl
  · exact note_carried (o := .logged _) rfl
  · exact note_carried (s := { s with ledger := s.ledger.record key }) rfl

theorem begin_carried (s : Workshop) (key : String) :
    (s.begin key).1.history.carried = s.history.carried := by
  have began : (s.note (.began key s.schedule.now)).history.carried = s.history.carried :=
    note_carried rfl
  rw [begin]
  dsimp only
  split
  · exact began
  · exact (logs_carried _ _).trans began
  · exact began

end Workshop

/-- A source that stops is to, or nothing is in the channel and nobody may send. -/
theorem Source.stop_of_act {c : Channel} {t : TaskId} {fired senders : Bool}
    (stops : (Source.running.act c t fired senders).deed = .finish) :
    (fired = true ∨ c.buffer = [] ∧ senders = false) ∧
      ∃ e, Source.running.act c t fired senders = Source.stop c e := by
  simp only [act] at stops ⊢
  split
  · rename_i is
    exact ⟨.inl is, _, rfl⟩
  · rename_i unfired
    simp only [unfired] at stops
    cases received : c.receive? with
    | none =>
        simp only [received] at stops ⊢
        cases senders with
        | true => simp at stops
        | false => exact ⟨.inr ⟨Engine.receive?_eq_none.1 received, rfl⟩, _, rfl⟩
    | some got =>
        obtain ⟨e, c', woken⟩ := got
        simp only [received] at stops
        cases known : ObjectKey.ofReference? e.reference <;> simp [known] at stops

namespace Worker

theorem settle_carried (s : Workshop) (key : String) (result : ReconcileResult) (fresh : TaskId) :
    (settle s key result fresh).workshop.history.carried = s.history.carried := by
  have told : (s.note (.reconciled key result s.schedule.now)).history.carried =
      s.history.carried := Workshop.note_carried rfl
  have enters := (Workshop.enter_carried _ key result).trans told
  simp only [settle]
  split
  all_goals
    rename_i entered
    rw [entered] at enters
    simpa [Workshop.conclude, Desk.wake] using enters

/-- A worker tells nothing about changes on their way. -/
theorem act_carried (s : Workshop) (t fresh : TaskId) (worker : Worker) :
    (worker.act s t fresh).workshop.history.carried = s.history.carried := by
  cases worker with
  | stopped => rfl
  | working key result due =>
      simp only [act]
      split
      · exact (settle_carried _ key result fresh).trans (Workshop.note_carried rfl)
      · rfl
  | asking =>
      have asked := s.toDesk.ask_history t
      simp only [act]
      split
      all_goals
        rename_i answered
        rw [answered] at asked
      · rename_i desk key
        have begins := Workshop.begin_carried { s with toDesk := desk } key
        have begins := begins.trans (congrArg History.carried asked)
        split
        · exact (settle_carried _ key _ fresh).trans begins
        · exact begins
      · rename_i desk
        have told : ({ s with toDesk := desk }.log .workerStopped).history.carried =
            { s with toDesk := desk }.history.carried := Workshop.note_carried rfl
        exact told.trans (congrArg History.carried asked)
      · exact congrArg History.carried asked
      · exact congrArg History.carried asked

end Worker

namespace Engine

variable {w w' : Engine} {t : TaskId} {q : Pump}

/-- The way of the changes from the pumps to the work queue. -/
def belt (w : Engine) : Belt := ⟨w.channel.buffer, w.channel.closed, w.shop.history.carried⟩

theorem ofPlan_belt (options : EngineOptions) (plan : WatchPlan) :
    (ofPlan options plan).belt = ⟨[], false, []⟩ := by
  simp [ofPlan, belt, History.carried, Occurrence.isCarriage]

/-- What a task that goes on can do to the belt. -/
inductive Carries (w : Engine) (t : TaskId) : Belt → Prop
  /-- It leaves it alone. -/
  | stays : Carries w t w.belt
  /-- It is a pump, which is not to end, and its change enters. -/
  | enters {q : Pump} (e : ChangeEvent) (found : w.tasks[t]? = some (.pump q))
      (live : q.state ≠ .ended) (kept : q.aborted = false) (unfired : w.fired = false)
      (unclosed : w.channel.closed = false) :
      Carries w t (w.belt.enter e)
  /-- It is the source, which takes a change and hands over its key, if it has one. -/
  | hands {recording : Bool} {e : ChangeEvent} {rest : List ChangeEvent}
      (found : w.tasks[t]? = some (.source .running recording)) (unfired : w.fired = false)
      (next : w.channel.buffer = e :: rest) :
      Carries w t (w.belt.hand e rest)
  /-- It is the source, which stops because it is to, or because no change can come any
  more. -/
  | stops {recording : Bool} (found : w.tasks[t]? = some (.source .running recording))
      (reason : w.fired = true ∨ w.channel.buffer = [] ∧ w.hasSenders = false) :
      Carries w t w.belt.stop

section Frame

/-! ### Who leaves the belt alone -/

theorem note_belt {o : Occurrence} (aside : o.isCarriage = false) :
    (w.note o).belt = w.belt := by
  simp [belt, note, onDesk, Desk.note, History.carried, aside]

theorem keyed_belt (w : Engine) (key : String) : (w.note (.keyed key)).belt =
    { w.belt with carried := w.belt.carried ++ [.keyed key] } := by
  simp [belt, note, onDesk, Desk.note, History.carried, Occurrence.isCarriage]

@[simp] theorem setTask_belt (w : Engine) (t : TaskId) (task : EngineTask) :
    (w.setTask t task).belt = w.belt := rfl

@[simp] theorem wakeAll_belt (w : Engine) (ts : List TaskId) : (w.wakeAll ts).belt = w.belt := rfl

@[simp] theorem wakeAwaiting_belt (w : Engine) (t : TaskId) : (w.wakeAwaiting t).belt = w.belt :=
  rfl

@[simp] theorem log_belt (w : Engine) (events : List LogEvent) : (w.log events).belt = w.belt := by
  rw [log]
  induction events generalizing w with
  | nil => rfl
  | cons e events ih => exact (ih _).trans (note_belt rfl)

theorem push_belt (w : Engine) (key : String) : (w.onDesk (·.push key)).belt = w.belt := by
  simp only [belt, onDesk, Desk.push_carried]

@[simp] theorem noticeSilence_belt (w : Engine) : w.noticeSilence.belt = w.belt := by
  rw [noticeSilence]
  split <;> rfl

@[simp] theorem fire_belt (w : Engine) : w.fire.belt = w.belt := by
  rw [fire]
  split <;> rfl

@[simp] theorem abort_belt (w : Engine) (ts : List TaskId) : (w.abort ts).belt = w.belt := by
  rw [abort]
  induction ts generalizing w with
  | nil => rfl
  | cons t ts ih =>
      rw [List.foldl_cons, ih]
      split
      · split <;> rfl
      · rfl

theorem openStreams_belt (w : Engine) (r : Registration) (watches : List PlannedWatch) :
    (w.openStreams r watches).1.belt = w.belt := by
  induction watches generalizing w r with
  | nil => rfl
  | cons watch rest ih =>
      rw [openStreams]
      split
      · exact abort_belt w _
      · dsimp only
        split
        · exact abort_belt _ _
        · exact ih _ _

theorem register_belt (w : Engine) : w.register.1.belt = w.belt := by
  have opened := openStreams_belt w {} w.plan.watches
  rw [register]
  split
  all_goals
    rename_i answered
    rw [answered] at opened
    exact opened

theorem endStartup_belt (w : Engine) (t : TaskId) (result : Except WatchError Registration) :
    (w.endStartup t result).belt = w.belt := by
  simp only [endStartup]
  cases result with
  | error e => rfl
  | ok r =>
      dsimp only
      split <;> rfl

theorem actStartup_belt (w : Engine) (t : TaskId) (state : Startup) :
    (w.actStartup t state).1.belt = w.belt := by
  cases state with
  | ended => rfl
  | fresh =>
      have opened := w.register_belt
      simp only [actStartup]
      split
      all_goals
        rename_i w₁ outcome registered
        rw [registered] at opened
      · rw [endStartup_belt]
        exact (noticeSilence_belt { w₁.settleGate .cancelled with spare := false }).trans opened
      · exact (noticeSilence_belt { w₁ with spare := false }).trans opened
  | hydrating r pending due =>
      simp only [actStartup]
      split
      · rfl
      · rw [endStartup_belt]
        rfl
      · rw [endStartup_belt]
        exact abort_belt (w.clearTimers t) r.pumps

@[simp] theorem acquire_belt (w : Engine) (t : TaskId) : (w.acquire t).1.belt = w.belt := by
  rw [acquire]
  dsimp only
  split <;> rfl

theorem actHydration_belt (w : Engine) (t : TaskId) (call : HydrationCall) :
    (w.actHydration t call).1.belt = w.belt := by
  cases call with
  | ended | dropped => rfl
  | hydrating =>
      simp only [actHydration]
      split <;> rfl
  | locking =>
      have acquired := w.acquire_belt t
      simp only [actHydration]
      split
      all_goals
        rename_i answered
        rw [answered] at acquired
      · exact acquired
      · split <;> exact acquired

theorem actJoin_belt (w : Engine) (t : TaskId) (call : JoinCall) :
    (w.actJoin t call).1.belt = w.belt := by
  cases call with
  | ended => rfl
  | joining =>
      simp only [actJoin]
      split <;> rfl
  | locking =>
      have acquired := w.acquire_belt t
      simp only [actJoin]
      split
      all_goals
        rename_i answered
        rw [answered] at acquired
      · exact acquired
      · split <;> exact acquired

theorem actPipeline_belt (w : Engine) (t : TaskId) (state : Pipeline) :
    (w.actPipeline t state).1.belt = w.belt := by
  cases state with
  | fresh | ended => rfl
  | syncing =>
      simp only [actPipeline]
      split <;> first | rfl | exact w.fire_belt
  | running =>
      simp only [actPipeline]
      split
      · rfl
      · exact w.fire_belt
  | draining | stopping | opening =>
      simp only [actPipeline]
      split <;> rfl
  | failing =>
      simp only [actPipeline]
      split
      · rfl
      · rename_i result _
        cases result with
        | error e => rfl
        | ok r => exact w.abort_belt r.pumps

theorem actWorker_belt (w : Engine) (t : TaskId) (state : Worker) :
    (w.actWorker t state).1.belt = w.belt := by
  simp only [actWorker]
  split <;> simp only [belt, wakeAwaiting, wakeAll, onDesk, Desk.wakeAll, Worker.act_carried]

theorem dropKept_belt (w : Engine) : w.dropKept.belt = w.belt := by
  rw [dropKept]
  split
  · exact abort_belt { w with kept := none } _
  · rfl

end Frame

section Outside

/-- Whether a command takes something from the channel, or closes it. -/
def Command.receives : Command → Bool
  | .receive | .dropReceiver | .dropSource => true
  | _ => false

/-- What is done from outside enters nothing on the record of the changes on their way; and
only who has the receiver changes what is in the channel. -/
theorem apply_belt (w : Engine) (c : Command) :
    (w.apply c).1.belt = w.belt ∨
      c.receives = true ∧ ∃ buffer closed, (w.apply c).1.belt = { w.belt with buffer, closed } := by
  cases c with
  | receive =>
      refine .inr ⟨rfl, ?_⟩
      simp only [apply, receive]
      split <;> exact ⟨_, _, rfl⟩
  | dropReceiver => exact .inr ⟨rfl, [], true, rfl⟩
  | dropSource =>
      refine .inr ⟨rfl, ?_⟩
      simp only [apply]
      split <;> exact ⟨_, _, rfl⟩
  | start | source | run =>
      refine .inl ?_
      simp only [apply]
      split <;> rfl
  | register =>
      have opened := w.register_belt
      refine .inl ?_
      simp only [apply]
      split
      · split
        all_goals
          rename_i registered
          rw [registered] at opened
        · exact (dropKept_belt _).trans opened
        · exact opened
      · rfl
  | fireCall call =>
      refine .inl ?_
      simp only [apply, fireCall]
      split <;> rfl
  | dropCall call =>
      refine .inl ?_
      simp only [apply, dropHydration]
      split <;> rfl
  | join alone =>
      refine .inl ?_
      cases alone with
      | true => rfl
      | false =>
          simp only [apply]
          split <;> rfl
  | dropStartup =>
      refine .inl ?_
      simp only [apply]
      split
      · exact noticeSilence_belt { w with idleStartup := false, spare := false }
      · rfl
  | dropRegistration =>
      refine .inl ?_
      simp only [apply]
      split
      · exact w.dropKept_belt
      · rfl
  | dropSpare => exact .inl (noticeSilence_belt { w with spare := false })
  | cancel => exact .inl w.fire_belt
  | push key => exact .inl (w.push_belt key)
  | waitSync | waitHydrated | drain | pass | arrive | observe | closeStream | failOn | closeQueue =>
      exact .inl rfl

end Outside

section Act

/-! ### Who goes on -/

theorem endPump_belt (w : Engine) (t : TaskId) (q : Pump) : (w.endPump t q).belt = w.belt := by
  refine (noticeSilence_belt _).trans ?_
  show Belt.mk (w.channel.withdraw t).1.buffer (w.channel.withdraw t).1.closed _ = _
  rw [Path.withdraw_buffer, Path.withdraw_closed]
  rfl

/-- A change that is offered enters, if the channel is not closed, or nothing happens. -/
theorem offer_belt (w : Engine) (t : TaskId) (q : Pump) (e : ChangeEvent) :
    (w.offer t q e).1.belt = w.belt ∨
      w.channel.closed = false ∧ (w.offer t q e).1.belt = w.belt.enter e := by
  obtain ⟨-, offered⟩ | ⟨unclosed, -, offered⟩ | ⟨-, -, offered⟩ | ⟨-, -, -, offered⟩ :=
    w.channel.offer_cases t e
  · simp only [offer, offered]
    exact .inl ((endPump_belt _ t q).trans (note_belt rfl))
  · simp only [offer, offered]
    refine .inr ⟨unclosed, ?_⟩
    rw [setTask_belt, note_belt rfl]
    simp [belt, Belt.enter, wakeListener, wakeAll, note, onDesk, Desk.note, Desk.wakeAll,
      Channel.takeListener, Channel.put, History.carried, Occurrence.isCarriage]
  · simp only [offer, offered]
    exact .inl rfl
  · simp only [offer, offered]
    exact .inl rfl

theorem deliver_belt (w : Engine) (t : TaskId) (q : Pump) (item : StreamItem) :
    (w.deliver t q item).1.belt = w.belt ∨
      w.channel.closed = false ∧ ∃ e, (w.deliver t q item).1.belt = w.belt.enter e := by
  rcases item with e | _ | _
  · exact .inl (note_belt rfl)
  · rename_i n
    have told := w.log_belt (w.plan.filterTable.judge q.gvk n).2
    have channel := w.log_channel (w.plan.filterTable.judge q.gvk n).2
    simp only [deliver]
    split
    · exact .inl ((note_belt rfl).trans told)
    · rename_i e _
      have offered := (w.log (w.plan.filterTable.judge q.gvk n).2).offer_belt t q e
      rw [told, channel] at offered
      exact offered.imp_right (And.imp_right fun enters => ⟨e, enters⟩)
  · exact .inl rfl

/-- A pump that goes on leaves the belt alone, or puts a change on it. -/
theorem carries_actPump (found : w.tasks[t]? = some (.pump q)) :
    Carries w t (w.actPump t q).1.belt := by
  have stays {b : Belt} (same : b = w.belt) : Carries w t b := same ▸ .stays
  have enters {b : Belt} (live : q.state ≠ .ended) (goes : ¬ (q.aborted || w.fired) = true)
      (entered : b = w.belt ∨ w.channel.closed = false ∧ ∃ e, b = w.belt.enter e) :
      Carries w t b := by
    obtain ⟨kept, unfired⟩ : q.aborted = false ∧ w.fired = false := by simpa using goes
    obtain same | ⟨unclosed, e, rfl⟩ := entered
    · exact stays same
    · exact .enters e found live kept unfired unclosed
  simp only [actPump]
  split
  · exact .stays
  · rename_i listening
    have live : q.state ≠ .ended := by simp [listening]
    split
    · exact stays (w.endPump_belt t q)
    · rename_i goes
      simp only [listen]
      split
      · split
        · exact .stays
        · exact stays (w.endPump_belt t q)
      · rename_i item rest _
        exact enters live goes (deliver_belt
          { w with provider := w.provider.put { w.provider.feed q.gvk with arrivals := rest } }
          t q item)
      · exact .stays
  · rename_i e sending
    have live : q.state ≠ .ended := by simp [sending]
    split
    · exact stays (w.endPump_belt t q)
    · rename_i goes
      exact enters live goes
        ((w.offer_belt t q e).imp_right (And.imp_right fun entered => ⟨e, entered⟩))

/-- What a source does besides what it does to the channel. -/
def passOn (w : Engine) (t : TaskId) (recording : Bool) : Source.Deed → Engine
  | .hand key =>
    if recording then { w.note (.keyed key) with recorded := w.recorded ++ [key] }
    else (w.note (.keyed key)).onDesk (·.push key)
  | .finish => w.wakeAwaiting t
  | _ => w

theorem passOn_belt (w : Engine) (t : TaskId) (recording : Bool) (deed : Source.Deed) :
    (w.passOn t recording deed).belt =
      { w.belt with carried := w.belt.carried ++ deed.key?.toList.map .keyed } := by
  cases deed with
  | hand key =>
      simp only [passOn]
      split
      · exact keyed_belt w key
      · exact (push_belt _ key).trans (keyed_belt w key)
  | begin | skip | wait | finish => simp [passOn, Source.Deed.key?]

/-- A source that goes on does to the belt what it does to the channel, and keeps a record
of the key that it hands over. -/
theorem actSource_belt (w : Engine) (t : TaskId) {state : Source} (recording : Bool)
    (runs : state ≠ .ended) : (w.actSource t state recording).1.belt =
      ⟨(state.act w.channel t w.fired w.hasSenders).channel.buffer,
        (state.act w.channel t w.fired w.hasSenders).channel.closed,
        w.shop.history.carried ++
          (state.act w.channel t w.fired w.hasSenders).deed.key?.toList.map .keyed⟩ := by
  let move := state.act w.channel t w.fired w.hasSenders
  let moved := (({ w with channel := move.channel }.setTask t
    (.source (Source.after move.deed) recording)).wakeAll move.woken).log move.log
  have before : moved.belt = ⟨move.channel.buffer, move.channel.closed, w.shop.history.carried⟩ :=
    log_belt _ _
  have acts : (w.actSource t state recording).1 = moved.passOn t recording move.deed := by
    cases state with
    | ended => exact absurd rfl runs
    | fresh | running => rfl
  rw [acts, passOn_belt, before]

theorem stop_belt (w : Engine) (e : LogEvent) :
    (⟨(Source.stop w.channel e).channel.buffer, (Source.stop w.channel e).channel.closed,
      w.shop.history.carried ++ (Source.stop w.channel e).deed.key?.toList.map .keyed⟩ : Belt) =
        w.belt.stop := by
  simp [Source.stop, Source.Deed.key?, Channel.drop, Channel.close, belt, Belt.stop]

/-- A source that goes on takes a change from the belt, or stops. -/
theorem carries_actSource {state : Source} {recording : Bool}
    (found : w.tasks[t]? = some (.source state recording)) :
    Carries w t (w.actSource t state recording).1.belt := by
  have stays {b : Belt} (same : b = w.belt) : Carries w t b := same ▸ .stays
  cases state with
  | ended => exact .stays
  | fresh =>
      rw [actSource_belt w t recording (by simp)]
      exact stays (by simp [Source.act, Source.Deed.key?, belt])
  | running =>
      have stops {b : Belt} (reason : w.fired = true ∨ w.channel.buffer = [] ∧
          w.hasSenders = false) (same : b = w.belt.stop) : Carries w t b :=
        same ▸ .stops found reason
      rw [actSource_belt w t recording (by simp)]
      by_cases fired : w.fired = true
      · simp only [Source.act, fired, if_true]
        exact stops (.inl fired) (stop_belt w _)
      · simp only [Source.act, fired]
        cases received : w.channel.receive? with
        | none =>
            by_cases senders : w.hasSenders = true
            · exact stays (by simp [senders, Source.Deed.key?, belt])
            · have silent : w.hasSenders = false := by simpa using senders
              simp only [silent]
              exact stops (.inr ⟨receive?_eq_none.1 received, silent⟩) (stop_belt w _)
        | some got =>
            obtain ⟨e, c, woken⟩ := got
            obtain ⟨rest, next, granted⟩ := Path.receive?_eq_some.1 received
            have left : c.buffer = rest := by
              simpa [granted] using Path.grant_buffer { w.channel with buffer := rest }
            have closed := Path.receive?_closed received
            have handed : Carries w t (w.belt.hand e rest) :=
              .hands found (by simpa using fired) next
            cases known : ObjectKey.ofReference? e.reference <;>
              simpa [Source.Deed.key?, known, left, closed, belt, Belt.hand, ChangeEvent.key?]
                using handed

/-- What becomes of a source. When it stops it lets go of the channel, and it does so because
it is to, or because no change can come any more. -/
inductive SourceTurn (w w' : Engine) : Source → Source → Prop
  /-- It stays what it is. -/
  | stays (state : Source) : SourceTurn w w' state state
  /-- It begins. -/
  | begins : SourceTurn w w' .fresh .running
  /-- It stops. -/
  | stops (reason : w.fired = true ∨ w.channel.buffer = [] ∧ w.hasSenders = false)
      (stopped : w'.belt = w.belt.stop) : SourceTurn w w' .running .ended

theorem sourceTurn_act {state : Source} {recording : Bool}
    (found : w.tasks[t]? = some (.source state recording)) :
    ∃ state', (w.act t).1.tasks[t]? = some (.source state' recording) ∧
      SourceTurn w (w.act t).1 state state' := by
  simp only [act, found]
  cases state with
  | ended => exact ⟨_, found, .stays _⟩
  | fresh => exact ⟨_, actSource_after (by simp) found, .begins⟩
  | running =>
      refine ⟨_, actSource_after (by simp) found, ?_⟩
      have runs : Source.running ≠ .ended := by simp
      have carried := w.actSource_belt t recording runs
      cases deed : (Source.running.act w.channel t w.fired w.hasSenders).deed with
      | begin | hand | skip | wait => exact .stays _
      | finish =>
          obtain ⟨reason, e, acts⟩ := Source.stop_of_act deed
          rw [acts] at carried
          exact .stops reason (carried.trans (stop_belt w e))

theorem carries_act (w : Engine) (t : TaskId) : Carries w t (w.act t).1.belt := by
  have stays {b : Belt} (same : b = w.belt) : Carries w t b := same ▸ .stays
  cases found : w.tasks[t]? with
  | none =>
      simp only [act, found]
      exact .stays
  | some task =>
      simp only [act, found]
      cases task with
      | pump q => exact carries_actPump found
      | source state recording => exact carries_actSource found
      | startup state => exact stays (w.actStartup_belt t state)
      | waiter answer => cases answer <;> exact .stays
      | hydration call => exact stays (w.actHydration_belt t call)
      | join call => exact stays (w.actJoin_belt t call)
      | pipeline state => exact stays (w.actPipeline_belt t state)
      | worker state => exact stays (w.actWorker_belt t state)
      | delayed key push =>
          refine stays ?_
          simp only [belt, setTask, onDesk, DelayedPush.act_carried]

end Act

section Run

variable {x : Happening Command} {past : Past Engine Command}

/-- Whatever happens, every source takes a turn. -/
theorem sourceTurn_after {state : Source} {recording : Bool} (watchful : w.Watchful)
    (possible : conduct.Possible past w x)
    (found : w.tasks[t]? = some (.source state recording)) :
    ∃ state', (conduct.after w x).tasks[t]? = some (.source state' recording) ∧
      SourceTurn w (conduct.after w x) state state' := by
  obtain rfl | still := stays_after watchful possible found (by simp) (by simp)
  · obtain ⟨s, same⟩ := w.after_eq (.move t)
    obtain ⟨state', found', turn⟩ := sourceTurn_act found
    rw [same]
    refine ⟨state', found', ?_⟩
    cases turn with
    | stays => exact .stays _
    | begins => exact .begins
    | stops reason stopped => exact .stops reason stopped
  · exact ⟨state, still, .stays _⟩

/-- Nothing enters the channel but by a pump that goes on, while the token has not fired and
the pump is not to end. -/
theorem entered_after (w : Engine) (x : Happening Command) :
    (conduct.after w x).shop.history.entered = w.shop.history.entered ∨
      ∃ t q, x = .move t ∧ w.tasks[t]? = some (.pump q) ∧ q.state ≠ .ended ∧
        q.aborted = false ∧ w.fired = false := by
  obtain ⟨s, same⟩ := w.after_eq x
  rw [same]
  cases x with
  | move t =>
      have carries := w.carries_act t
      generalize carried : (w.act t).1.belt = b at carries
      cases carries with
      | stays | stops => exact .inl (History.entered_of_carried (congrArg Belt.carried carried))
      | hands found unfired next =>
          refine .inl ?_
          refine (History.entered_carried _).symm.trans (Eq.trans ?_ (History.entered_carried _))
          exact (congrArg (·.carried.entered) carried).trans (Belt.hand_entered ..)
      | enters e found live kept unfired => exact .inr ⟨t, _, rfl, found, live, kept, unfired⟩
  | elapse time => exact .inl rfl
  | command c =>
      obtain still | ⟨-, _, _, still⟩ := w.apply_belt c
      all_goals exact .inl (History.entered_of_carried (congrArg Belt.carried still))

/-- No key is handed over but by a source that goes on, while the token has not fired. -/
theorem keyed_after (w : Engine) (x : Happening Command) :
    (conduct.after w x).shop.history.keyed = w.shop.history.keyed ∨
      ∃ t recording, x = .move t ∧ w.tasks[t]? = some (.source .running recording) ∧
        w.fired = false := by
  obtain ⟨s, same⟩ := w.after_eq x
  rw [same]
  cases x with
  | move t =>
      have carries := w.carries_act t
      generalize carried : (w.act t).1.belt = b at carries
      cases carries with
      | stays | stops => exact .inl (History.keyed_of_carried (congrArg Belt.carried carried))
      | hands found unfired next => exact .inr ⟨t, _, rfl, found, unfired⟩
      | enters e found live kept unfired =>
          refine .inl ?_
          refine (History.keyed_carried _).symm.trans (Eq.trans ?_ (History.keyed_carried _))
          exact (congrArg (·.carried.keyed) carried).trans (Belt.enter_keyed ..)
  | elapse time => exact .inl rfl
  | command c =>
      obtain still | ⟨-, _, _, still⟩ := w.apply_belt c
      all_goals exact .inl (History.keyed_of_carried (congrArg Belt.carried still))

end Run

end Engine

end ResourceWatch
