import ResourceWatch.Engine.Pipeline
import ResourceWatch.Engine.Pump
import ResourceWatch.Engine.Startup

/-!
# Running the engine

How a task of the engine goes on, what can be done to the engine from outside,
and how an engine is made. Making one checks the input set and plans it; no
stream is asked for before startup begins.
-/

namespace ResourceWatch

namespace Engine

def act (w : Engine) (t : TaskId) : Engine × Progress :=
  match w.tasks[t]? with
  | some (.pump p) => w.actPump t p
  | some (.source state recording) => w.actSource t state recording
  | some (.startup state) => w.actStartup t state
  | some (.waiter none) => (w.setTask t (.waiter (w.gate.answer? w.fired)), .rests)
  | some (.waiter (some _)) => (w, .rests)
  | some (.hydration call) => w.actHydration t call
  | some (.join call) => w.actJoin t call
  | some (.pipeline state) => w.actPipeline t state
  | some (.worker state) => w.actWorker t state
  | some (.delayed key push) =>
    let (desk, push) := push.act w.shop.toDesk t key
    ((w.onDesk fun _ => desk).setTask t (.delayed key push), .rests)
  | none => (w, .rests)

instance : Cooperative Engine where
  schedule w := w.shop.schedule
  reschedule w s := { w with shop := { w.shop with schedule := s } }
  act := act

/-- What can be done from outside. -/
inductive Command where
  /-- Startup begins. -/
  | start
  /-- The source begins, for a queue that records keys. -/
  | source
  /-- The pipeline begins. -/
  | run
  /-- Somebody waits for the gate. -/
  | waitSync
  /-- Streams are opened without startup. Each pump gets a writer of its own
  from the spare one, so nothing happens once that is gone. -/
  | register
  /-- Somebody waits for the streams of the kept registration, using it alone. -/
  | waitHydrated (limit : Duration) (token : CallToken := .shared)
  /-- The token of such a call fires, if it is one of its own. -/
  | fireCall (call : TaskId)
  /-- Such a call is given up. -/
  | dropCall (call : TaskId)
  /-- Somebody waits for the streams of the kept registration to end. With
  `alone` that begins when nobody else uses it; without, only if it is kept. -/
  | join (alone : Bool)
  /-- Startup is given up before it begins. -/
  | dropStartup
  /-- The source is given up before it begins. -/
  | dropSource
  /-- The kept registration is let go of, if nobody uses it. -/
  | dropRegistration
  /-- Nobody beside the pumps writes to the channel any more. -/
  | dropSpare
  /-- Nobody receives from the channel any more. -/
  | dropReceiver
  /-- A change is received, if there is one. -/
  | receive
  /-- Changes are received until there is none; the tasks go on after each. -/
  | drain
  /-- The token fires. -/
  | cancel
  /-- Something arrives for a kind. -/
  | arrive (gvk : Gvk) (arrival : Arrival)
  /-- A report goes through the tracker of a kind, and what it amounts to
  arrives. -/
  | observe (gvk : Gvk) (event : WatchEvent)
  /-- Nothing more arrives for a kind. -/
  | closeStream (gvk : Gvk)
  /-- The streams of a kind cannot be opened from now on. -/
  | failOn (gvk : Gvk) (error : WatchError)
  /-- A key is pushed. -/
  | push (key : String)
  /-- The work queue is closed. -/
  | closeQueue
  /-- Time passes. -/
  | pass (millis : Nat)

/-- What a command is answered at once. -/
inductive Reply where
  | none
  /-- Streams were opened, or not. -/
  | registered (result : Except WatchError (List Gvk))

def receive (w : Engine) : Engine :=
  match w.channel.receive? with
  | some (e, channel, woken) =>
    { w with channel, received := w.received ++ [e] }.wakeAll woken.toList
  | none => w

/-- Receive changes until there is none, at most `fuel` of them. -/
def drain : Nat → Engine → Engine
  | 0, w => w
  | fuel + 1, w =>
    if w.channel.buffer.isEmpty then w else drain fuel (Cooperative.settle w.receive)

def dropReceiver (w : Engine) : Engine :=
  let (channel, woken) := w.channel.drop
  { w with channel }.wakeAll woken

def dropKept (w : Engine) : Engine :=
  match w.kept with
  | some r => { w with kept := none }.drop r
  | none => w

/-- Something arrives for a kind. -/
def arrive (w : Engine) (gvk : Gvk) (more : List Arrival) : Engine :=
  { w with provider := w.provider.arrive gvk more }.wakePumps gvk

/-- The immediate effect of a command, and what it is answered. -/
def apply (w : Engine) : Command → Engine × Reply
  | .start =>
    (if w.idleStartup then { w with idleStartup := false }.call (.startup .fresh) else w, .none)
  | .source =>
    (if w.idleSource then { w with idleSource := false }.call (.source .fresh true) else w, .none)
  | .run =>
    (if w.idleStartup && w.idleSource then
      { w with idleStartup := false, idleSource := false }.call (.pipeline .fresh)
    else w, .none)
  | .waitSync => (w.call (.waiter Option.none), .none)
  | .register =>
    if w.spare then
      match w.register with
      | (w, .ok r) => ({ w.dropKept with kept := some r }, .registered (.ok r.kinds))
      | (w, .error e) => (w, .registered (.error e))
    else (w, .none)
  | .waitHydrated limit token => (w.call (.hydration (.locking limit token)), .none)
  | .fireCall call => (w.fireCall call, .none)
  | .dropCall call => (w.dropHydration call, .none)
  | .join true => (w.call (.join .locking), .none)
  | .join false =>
    match w.kept with
    | some r => ({ w with kept := Option.none }.call (.join (.joining r.pumps)), .none)
    | none => (w, .none)
  | .dropStartup =>
    (if w.idleStartup then ({ w with idleStartup := false }.dropSpare).settleGate .cancelled
    else w, .none)
  | .dropSource =>
    (if w.idleSource then { w with idleSource := false }.dropReceiver else w, .none)
  | .dropRegistration => (if w.lock.isEmpty then w.dropKept else w, .none)
  | .dropSpare => (w.dropSpare, .none)
  | .dropReceiver => (w.dropReceiver, .none)
  | .receive => (w.receive, .none)
  | .drain | .pass _ => (w, .none)
  | .cancel => (w.fire, .none)
  | .arrive gvk arrival => (w.arrive gvk [arrival], .none)
  | .observe gvk event =>
    let (feed, made) := (w.provider.feed gvk).track event
    ({ w with provider := w.provider.put feed }.arrive gvk made, .none)
  | .closeStream gvk => ({ w with provider := w.provider.close gvk }.wakePumps gvk, .none)
  | .failOn gvk e => ({ w with provider := w.provider.fail gvk e }, .none)
  | .push key => (w.onDesk (·.push key), .none)
  | .closeQueue => (w.onDesk Desk.close, .none)

/-- A command and everything that it causes. -/
def perform (w : Engine) (c : Command) : Engine × Reply :=
  match c with
  | .pass millis => (Cooperative.pass w millis, .none)
  | .drain => (w.drain Cooperative.patience, .none)
  | c =>
    let (w, reply) := w.apply c
    (Cooperative.settle w, reply)

/-- The final answer to a call. -/
inductive Answer where
  /-- Startup has opened these streams, or failed. -/
  | started (result : Except WatchError (List Gvk))
  /-- The source has ended. -/
  | sourceEnded
  /-- Waiting has ended. -/
  | waited (result : Except WatchError Unit)
  /-- Every stream has ended. -/
  | joined
  /-- There was no registration. -/
  | noRegistration
  /-- The pipeline has ended. -/
  | ran (result : PipelineResult)

/-- What a task answers to the call that it was started by. -/
def answerOf : EngineTask → Option Answer
  | .startup (.ended result) => some (.started (result.map (·.kinds)))
  | .source .ended _ => some .sourceEnded
  | .waiter (some result) => some (.waited result)
  | .hydration (.ended (some result)) => some (.waited result)
  | .hydration (.ended none) | .join (.ended false) => some .noRegistration
  | .join (.ended true) => some .joined
  | .pipeline (.ended result) => some (.ran result)
  | _ => none

def answers (w : Engine) : List (Option Answer) :=
  w.calls.map fun t => w.tasks[t]?.bind answerOf

end Engine

/-- What an engine is made with. -/
structure EngineOptions where
  /-- How many changes the event channel is to hold; none counts as one. -/
  capacity : Nat := 1024
  /-- How long startup waits for the streams. -/
  limit : Duration := .ofSeconds 120
  /-- What reconciles a key. -/
  reconciler : WatchPlan → Reconciler := Reconciler.observing
  /-- The bounds of retry delays. -/
  backoff : Backoff := ⟨1, 60⟩
  /-- Whether a store is attached for every stream. -/
  cached : Bool := true

inductive EngineFault where
  /-- The input set cannot be used. -/
  | refused (error : WatchError)
  /-- No channel can hold so many changes. -/
  | channelTooLarge
deriving DecidableEq, Repr

namespace Engine

/-- An engine for a plan, before anything has happened in it. Its record begins with the
selectors that share a watch, as planning found them. -/
def ofPlan (options : EngineOptions) (plan : WatchPlan) : Engine where
  shop := {
    reconciler := options.reconciler plan
    ledger := { backoff := options.backoff }
    history := List.replicate plan.shared .shared }
  plan := plan
  limit := options.limit
  provider := { cached := options.cached }
  channel := { capacity := Nat.max 1 options.capacity }

/-- Make an engine for an input set on top of a provider that others may use as well: check the
set, plan it, and make the event channel. The first part is the provider as that leaves it. -/
def makeOn (provider : Provider) (options : EngineOptions) (resolve : Resolver) (set : InputSet) :
    Provider × Except EngineFault Engine :=
  match set.check with
  | .error e => (provider, .error (.refused (.invalidInput e)))
  | .ok () =>
    match WatchPlan.of resolve set with
    | .error e => (provider, .error (.refused e))
    | .ok plan =>
      if Channel.maxCapacity < options.capacity then (provider, .error .channelTooLarge)
      else (provider, .ok { ofPlan options plan with provider })

/-- Make an engine for an input set on top of a provider that nobody has used. -/
def make (options : EngineOptions) (resolve : Resolver) (set : InputSet) :
    Except EngineFault Engine :=
  (makeOn { cached := options.cached } options resolve set).2

end Engine

end ResourceWatch
