import Mathlib.Logic.Function.Basic
import Mathlib.Logic.Relation
import Mathlib.Tactic.Simps.Basic
import ResourceWatch.Engine.Run
import ResourceWatch.Proofs.Runs

/-!
# The path of a change

What matters to the changes on their way is only a part of the engine: the feeds
and stores, the event channel, the work queue, who can go on, and for each task
whether it is a pump, holds a key, or can still open streams. `Engine.path` is
this part.

`Path.Step` says once what can happen to it. What the engine does when a task goes
on is a sequence of such steps, and whatever every step preserves holds in every
run. A step says when it can be taken, so an invariant need not look into the
engine.

A pipeline that runs alone has one startup, one source that hands its keys to the
work queue, and nobody outside who meddles with the event channel. The steps that
need somebody outside are marked: they are not taken `alone`.
-/

namespace ResourceWatch

/-- What a task is to the changes on their way. -/
inductive Role where
  /-- A pump. -/
  | pump (pump : Pump)
  /-- A worker that reconciles a key, with what will come of it. -/
  | holder (key : String) (result : ReconcileResult)
  /-- A source that only records its keys. -/
  | recorder
  /-- A startup that has not ended, or a pipeline that has no startup yet; and
  whether the streams are open. -/
  | starter (opened : Bool)
  /-- A pipeline that waits for its startup to fail. -/
  | failing
  /-- Anything else. -/
  | bystander

/-- A pump that has not ended is to end. -/
def Role.abandon : Role → Role
  | .pump p => if p.state = .ended then .pump p else .pump { p with aborted := true }
  | r => r

/-- What a task is to the changes on their way. -/
def EngineTask.role : EngineTask → Role
  | .pump p => .pump p
  | .worker (.working key result _) => .holder key result
  | .source _ true => .recorder
  | .startup .fresh | .pipeline .fresh => .starter false
  | .startup (.hydrating ..) => .starter true
  | .pipeline (.failing ..) => .failing
  | _ => .bystander

/-- Whether a change, a reconcile or its result is recorded. -/
def Occurrence.isMilestone : Occurrence → Bool
  | .entered _ | .began .. | .reconciled .. => true
  | _ => false

/-- The change that an item of a kind's stream amounts to: none if the item is an
error or the mark of a full list, if the notification refers to no object, and if
no filter of the kind takes the object. The first filter that takes it names the
owner. -/
def FilterTable.event? (table : FilterTable) (gvk : Gvk) : StreamItem → Option ChangeEvent
  | .ok (.change n) => do
    let ref ← (n.reference (some gvk)).toOption
    let f ← (table.filtersOf gvk).find? (·.takes ref)
    return ⟨ref, f.owner, n.action⟩
  | _ => none

/-- Whether an item says that the first full list is complete. -/
def StreamItem.isMark : StreamItem → Bool
  | .ok .hydrated => true
  | _ => false

/-- The plan for whose owners reconciles look at the cache, if they do. -/
def Reconciler.plan? : Reconciler → Option WatchPlan
  | .observing plan => some plan
  | _ => none

/-- The part of the engine that matters to the changes on their way. -/
structure Path where
  /-- The filters of all kinds. -/
  table : FilterTable
  /-- Whether every stream gets a store. -/
  cached : Bool
  /-- What the stream of each kind will deliver. -/
  feed : Gvk → Feed
  /-- The stores of the kinds. -/
  store : Gvk → Option Store
  /-- The plan for whose owners reconciles look at the stores, if they do. -/
  looks : Option WatchPlan
  /-- The event channel. -/
  channel : Channel
  /-- Whether somebody beside the pumps may write to the channel. -/
  spare : Bool
  /-- Whether the token has fired. -/
  fired : Bool
  /-- What the gate tells. -/
  gate : SyncState
  /-- Whether startup has not begun and has not been given up. -/
  unstarted : Bool
  /-- The keys. -/
  queue : WorkQueue
  /-- When tasks run. -/
  schedule : Schedule
  /-- The milestones among what happened. -/
  record : List Occurrence
  /-- What each task is. -/
  role : TaskId → Role

def Engine.role (w : Engine) (t : TaskId) : Role :=
  (w.tasks[t]?.map EngineTask.role).getD .bystander

/-- The part of the engine that matters to the changes on their way. -/
@[simps] def Engine.path (w : Engine) : Path where
  table := w.plan.filterTable
  cached := w.provider.cached
  feed := w.provider.feed
  store := w.shop.cache.store?
  looks := w.shop.reconciler.plan?
  channel := w.channel
  spare := w.spare
  fired := w.fired
  gate := w.gate
  unstarted := w.idleStartup
  queue := w.shop.queue
  schedule := w.shop.schedule
  record := w.shop.history.filter Occurrence.isMilestone
  role := w.role

namespace Path

/-- The path under another schedule. -/
@[simps] def reschedule (p : Path) (schedule : Schedule) : Path := { p with schedule }

@[simps] def withChannel (p : Path) (channel : Channel) : Path := { p with channel }

@[simps] def withQueue (p : Path) (queue : WorkQueue) : Path := { p with queue }

@[simps] def withStore (p : Path) (store : Gvk → Option Store) : Path := { p with store }

@[simps] def become (p : Path) (t : TaskId) (r : Role) : Path :=
  { p with role := Function.update p.role t r }

@[simps] def feedAt (p : Path) (gvk : Gvk) (f : Feed) : Path :=
  { p with feed := Function.update p.feed gvk f }

@[simps] def note (p : Path) (o : Occurrence) : Path := { p with record := p.record ++ [o] }

@[simps] def abandon (p : Path) (pumps : List TaskId) : Path :=
  { p with role := fun t => if t ∈ pumps then (p.role t).abandon else p.role t }

/-- A pump waits only until its stream delivers something or there is room for its
change, and not at all when it is to end. -/
def MayRest (p : Path) (t : TaskId) : Prop :=
  ∀ q, p.role t = .pump q →
    q.state = .ended ∨
    p.fired = false ∧ q.aborted = false ∧
      ((q.state = .listening ∧ (p.feed q.gvk).arrivals = [] ∧ (p.feed q.gvk).live = true) ∨
        ∃ e, q.state = .sending e ∧ t ∈ p.channel.waiting)

def MustEnd (p : Path) (q : Pump) : Prop :=
  q.aborted = true ∨ p.fired = true ∨ p.channel.closed = true ∨
    (q.state = .listening ∧ (p.feed q.gvk).arrivals = [] ∧ (p.feed q.gvk).live = false)

/-- Nobody can write to the channel any more. -/
def Silent (p : Path) : Prop :=
  p.spare = false ∧ ∀ t q, p.role t = .pump q → q.state = .ended

/-- What can happen to the changes on their way, except that a key is handed out. -/
inductive Step (alone : Prop) (p : Path) : Path → Prop where
  /-- Tasks are made ready, or the timers change. -/
  | wake (schedule : Schedule) (keeps : p.schedule.Keeps schedule) :
      Step alone p (p.reschedule schedule)
  /-- A task waits, or has ended. -/
  | rest (t : TaskId) (may : p.MayRest t) :
      Step alone p (p.reschedule (p.schedule.rest t))
  /-- Somebody waits for a change, or does so no more. -/
  | listen (listener : Option TaskId) :
      Step alone p (p.withChannel { p.channel with listener })
  /-- The token fires, and pumps that have not ended are made ready. -/
  | fire (schedule : Schedule) (keeps : p.schedule.Keeps schedule)
      (woken : ∀ t q, p.role t = .pump q → q.state ≠ .ended → t ∈ schedule.ready) :
      Step alone p ({ p with fired := true }.reschedule schedule)
  /-- A startup or a pipeline begins. -/
  | begin (t : TaskId) (unstarted : p.unstarted = true) (new : p.role t = .bystander) :
      Step alone p ({ p with unstarted := false }.become t (.starter false))
  /-- A pipeline starts its startup. -/
  | delegate (t u : TaskId) (starter : p.role t = .starter false) (new : p.role u = .bystander) :
      Step alone p ((p.become u (.starter false)).become t .bystander)
  /-- Startup has opened the streams and waits for them. -/
  | await (t : TaskId) (starter : p.role t = .starter false) :
      Step alone p ({ p with spare := false }.become t (.starter true))
  /-- Startup ends well, and the gate opens. -/
  | open (t : TaskId) (opened : Bool) (starter : p.role t = .starter opened) :
      Step alone p ({ p with gate := p.gate.settle .synced }.become t .bystander)
  /-- Startup fails: the gate is closed, and the pumps are to end. -/
  | founder (t : TaskId) (opened spare : Bool) (pumps : List TaskId) (schedule : Schedule)
      (starter : p.role t = .starter opened) (dropped : spare = true → p.spare = true)
      (keeps : p.schedule.Keeps schedule)
      (woken : ∀ t ∈ pumps, ∀ q, p.role t = .pump q → q.state ≠ .ended → t ∈ schedule.ready) :
      Step alone p
        ((({ p with gate := p.gate.settle .cancelled, spare }.abandon pumps).become t
          .bystander).reschedule schedule)
  /-- A pipeline waits for its startup to fail. -/
  | fail (t : TaskId) (aside : p.role t = .bystander) (fired : p.fired = true) :
      Step alone p (p.become t .failing)
  /-- A pipeline waits for its startup no more. -/
  | retire (t : TaskId) (failing : p.role t = .failing) : Step alone p (p.become t .bystander)
  /-- Pumps are to end. -/
  | forsake (pumps : List TaskId) (schedule : Schedule) (free : alone → p.fired = true)
      (keeps : p.schedule.Keeps schedule)
      (woken : ∀ t ∈ pumps, ∀ q, p.role t = .pump q → q.state ≠ .ended → t ∈ schedule.ready) :
      Step alone p ((p.abandon pumps).reschedule schedule)
  /-- A stream is opened, with its store if it gets one. -/
  | stream (t : TaskId) (gvk : Gvk) (store : Gvk → Option Store) (schedule : Schedule)
      (new : p.role t = .bystander) (unfired : p.fired = false) (spare : alone → p.spare = true)
      (untaken : (p.feed gvk).taken = false)
      (attached : if p.cached then
          p.store gvk = none ∧ store = Function.update p.store gvk (some {})
        else store = p.store)
      (keeps : p.schedule.Keeps schedule) (ready : t ∈ schedule.ready) :
      Step alone p
        ((((p.withStore store).feedAt gvk { p.feed gvk with taken := true }).become t
          (.pump { gvk })).reschedule schedule)
  /-- A pump takes a report: the store is brought up to it, and the tracker makes
  items of it. -/
  | report (t : TaskId) (q : Pump) (e : WatchEvent) (rest : List Arrival)
      (pump : p.role t = .pump q) (ready : t ∈ p.schedule.ready) (state : q.state = .listening)
      (unfired : p.fired = false) (kept : q.aborted = false)
      (next : (p.feed q.gvk).arrivals = .report e :: rest) :
      Step alone p
        ((p.withStore fun gvk => (p.store gvk).map fun s =>
            if gvk = q.gvk then s.apply e else s).feedAt q.gvk
          { p.feed q.gvk with
            tracker := ((p.feed q.gvk).tracker.observe e).1
            arrivals := ((p.feed q.gvk).tracker.observe e).2.map (fun e => Arrival.item (.ok e)) ++
              rest })
  /-- A pump takes an item that amounts to no change. -/
  | pass (t : TaskId) (q : Pump) (item : StreamItem) (rest : List Arrival)
      (pump : p.role t = .pump q) (ready : t ∈ p.schedule.ready) (state : q.state = .listening)
      (unfired : p.fired = false) (kept : q.aborted = false)
      (next : (p.feed q.gvk).arrivals = .item item :: rest)
      (nothing : p.table.event? q.gvk item = none) :
      Step alone p ((p.feedAt q.gvk { p.feed q.gvk with arrivals := rest }).become t
        (.pump { q with hydrated := q.hydrated || StreamItem.isMark item }))
  /-- A pump takes an item that amounts to a change. -/
  | pick (t : TaskId) (q : Pump) (item : StreamItem) (rest : List Arrival) (e : ChangeEvent)
      (pump : p.role t = .pump q) (ready : t ∈ p.schedule.ready) (state : q.state = .listening)
      (unfired : p.fired = false) (kept : q.aborted = false)
      (next : (p.feed q.gvk).arrivals = .item item :: rest)
      (change : p.table.event? q.gvk item = some e) :
      Step alone p ((p.feedAt q.gvk { p.feed q.gvk with arrivals := rest }).become t
        (.pump { q with state := .sending e }))
  /-- The change of a pump enters the channel. -/
  | send (t : TaskId) (q : Pump) (e : ChangeEvent)
      (pump : p.role t = .pump q) (ready : t ∈ p.schedule.ready) (state : q.state = .sending e)
      (unfired : p.fired = false) (kept : q.aborted = false)
      (unclosed : p.channel.closed = false)
      (room : t ∈ p.channel.granted ∨ (t ∉ p.channel.waiting ∧ 0 < p.channel.room)) :
      Step alone p
        (((p.withChannel ({ p.channel with granted := p.channel.granted.erase t }.put e)).become t
          (.pump { q with state := .listening })).note (.entered e))
  /-- The change of a pump waits for room. -/
  | queueUp (t : TaskId) (q : Pump) (e : ChangeEvent)
      (pump : p.role t = .pump q) (ready : t ∈ p.schedule.ready) (state : q.state = .sending e)
      (unclosed : p.channel.closed = false) (full : p.channel.room = 0)
      (out : t ∉ p.channel.granted ∧ t ∉ p.channel.waiting) :
      Step alone p (p.withChannel { p.channel with waiting := p.channel.waiting ++ [t] })
  /-- Room that a pump was given is of no use, because the channel is closed. -/
  | refuse (t : TaskId) (closed : p.channel.closed = true) :
      Step alone p (p.withChannel { p.channel with granted := p.channel.granted.erase t })
  /-- A pump ends, and its room passes on. -/
  | finish (t : TaskId) (q : Pump) (schedule : Schedule) (pump : p.role t = .pump q)
      (live : q.state ≠ .ended) (must : p.MustEnd q) (keeps : p.schedule.Keeps schedule)
      (woken : ∀ u ∈ (p.channel.withdraw t).2, u ∈ schedule.ready) :
      Step alone p
        (((p.withChannel (p.channel.withdraw t).1).become t
          (.pump { q with state := .ended })).reschedule schedule)
  /-- The source hands the key of a change over. -/
  | hand (e : ChangeEvent) (key : ObjectKey) (c : Channel) (woken : Option TaskId)
      (schedule : Schedule) (received : p.channel.receive? = some (e, c, woken))
      (known : ObjectKey.ofReference? e.reference = some key)
      (keeps : p.schedule.Keeps schedule) (served : ∀ u ∈ woken, u ∈ schedule.ready) :
      Step alone p
        (((p.withChannel c).withQueue (p.queue.push key.encode).1).reschedule schedule)
  /-- The source skips a change to an object of unknown kind, or a change is taken
  out for nobody. -/
  | skip (e : ChangeEvent) (c : Channel) (woken : Option TaskId) (schedule : Schedule)
      (received : p.channel.receive? = some (e, c, woken))
      (unknown : alone → ObjectKey.ofReference? e.reference = none)
      (keeps : p.schedule.Keeps schedule) (served : ∀ u ∈ woken, u ∈ schedule.ready) :
      Step alone p ((p.withChannel c).reschedule schedule)
  /-- Nobody receives any more. -/
  | stop (schedule : Schedule)
      (free : alone → p.fired = true ∨ (p.channel.buffer = [] ∧ p.Silent))
      (keeps : p.schedule.Keeps schedule)
      (served : ∀ u ∈ p.channel.waiting, u ∈ schedule.ready) :
      Step alone p ((p.withChannel p.channel.drop.1).reschedule schedule)
  /-- A key is pushed. -/
  | push (key : String) : Step alone p (p.withQueue (p.queue.push key).1)
  /-- A worker reports its key done. -/
  | conclude (t : TaskId) (key : String) (result : ReconcileResult) (time : Nat)
      (holder : p.role t = .holder key result) :
      Step alone p
        (((p.withQueue (p.queue.finish key).1).become t .bystander).note
          (.reconciled key result time))
  /-- The work queue is closed. -/
  | close (free : alone → p.fired = true) : Step alone p (p.withQueue p.queue.close)
  /-- A source begins that only records. -/
  | record (t : TaskId) (free : ¬ alone) (new : p.role t = .bystander) :
      Step alone p (p.become t .recorder)
  /-- Startup or the spare writer is given up. -/
  | relinquish (free : ¬ alone) (gate : SyncState) (unstarted : Bool)
      (given : unstarted = true → p.unstarted = true) :
      Step alone p { p with spare := false, gate, unstarted }

theorem Step.to {alone : Prop} {p p' p'' : Path} (step : Step alone p p') (h : p' = p'') :
    Step alone p p'' := h ▸ step

/-- Steps, one after the other. -/
abbrev Steps (alone : Prop) : Path → Path → Prop := Relation.ReflTransGen (Step alone)

/-- A worker is handed a key and begins to reconcile it. What comes of it is
settled; where reconciles look at the stores, it is what they see there. -/
inductive Take (t : TaskId) (key : String) (p : Path) : Path → Prop where
  | take (queue : WorkQueue) (time : Nat) (result : ReconcileResult)
      (asking : p.role t = .bystander) (taken : p.queue.take? = some (key, queue))
      (seen : ∀ plan, p.looks = some plan →
        ∃ cache : Cache, cache.store? = p.store ∧ result = (cache.observe plan key).1) :
      Take t key p (((p.withQueue queue).become t (.holder key result)).note (.began key time))

/-- Steps, after a key was handed out to a worker, or not. -/
def Advance (alone : Prop) (t : TaskId) : Option String → Path → Path → Prop
  | none, p, p' => Steps alone p p'
  | some key, p, p' => ∃ p₁, Take t key p p₁ ∧ Steps alone p₁ p'

theorem Advance.steps {alone : Prop} {t : TaskId} {handed : Option String} {p p' p'' : Path}
    (h : Advance alone t handed p p') (steps : Steps alone p' p'') :
    Advance alone t handed p p'' := by
  cases handed with
  | none => exact Relation.ReflTransGen.trans h steps
  | some key =>
      obtain ⟨p₁, take, rest⟩ := h
      exact ⟨p₁, take, rest.trans steps⟩

/-- Something comes in for a kind, or its stream is closed. -/
inductive Inflow (gvk : Gvk) (f : Feed) (p : Path) : Path → Prop where
  | inflow (schedule : Schedule) (keeps : p.schedule.Keeps schedule)
      (woken : ∀ t q, p.role t = .pump q → q.gvk = gvk → q.state = .listening →
        t ∈ schedule.ready) :
      Inflow gvk f p ((p.feedAt gvk f).reschedule schedule)

end Path

end ResourceWatch
