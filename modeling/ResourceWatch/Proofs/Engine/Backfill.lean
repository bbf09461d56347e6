import ResourceWatch.Proofs.Engine.Syncing
import ResourceWatch.Proofs.Engine.Watchful

/-!
# First lists of any length pass

Pumps wait for room in the channel, startup waits for pumps, and only the source makes
room. There is no way round this circle in which everybody waits: a channel that
somebody waits for is full, so the source is not blocked. When nothing can move, a pump
whose stream has yielded its mark has therefore told so, and startup, which is blocked
by no other pump, has settled the gate.
-/

namespace ResourceWatch.Engine

open ResourceWatch.Path

variable {options : EngineOptions} {plan : WatchPlan} {past : Past Engine Command}
  {w : Engine} {t u : TaskId} {q : Pump}

/-- Nobody waits for room when nothing can move, if there is a source. -/
theorem waiting_of_source (run : conduct.Run (ofPlan options plan) past w)
    (idle : Cooperative.Idle w) {state : Source} {recording : Bool}
    (source : w.tasks[t]? = some (.source state recording)) : w.channel.waiting = [] := by
  have watchful := watchful_of_run run
  have forwards := forwards_of_run run
  have blocked := watchful.blocked idle source
  cases state with
  | fresh => exact blocked.elim
  | running =>
      refine waiting_of_idle forwards idle ?_
      rw [blocked.2.1]
      exact Nat.lt_of_lt_of_le Nat.zero_lt_one (Nat.le_max_left ..)
  | ended => exact forwards.awake.closed (watchful.grounded t _ source)

/-- When nothing can move and there is a source, a pump whose stream has yielded its mark
has told so, or has ended. -/
theorem hydrated_of_mark (run : conduct.Run (ofPlan options plan) past w)
    (idle : Cooperative.Idle w) {state : Source} {recording : Bool}
    (source : w.tasks[t]? = some (.source state recording))
    (pump : w.tasks[u]? = some (.pump q)) (mark : .ok .hydrated ∈ streamItems q.gvk past) :
    q.hydrated = true ∨ q.state = .ended := by
  have role := role_eq_pump.2 pump
  obtain ended | ⟨-, -, ⟨-, empty, -⟩ | ⟨e, -, waits⟩⟩ :=
    (forwards_of_run run).awake.rests u (by simp [idle_iff.1 idle]) q role
  · exact .inr ended
  · -- everything that the stream has yielded was taken, the mark with it
    obtain ⟨taken, flow, marks⟩ := (remembers_of_run run).kinds q.gvk
    have all : streamItems q.gvk past = taken := by
      rw [streamItems, flow.items, empty]
      exact List.append_nil taken
    refine .inl (by_contra fun unhydrated => ?_)
    have unmarked := marks.unmarked u q role rfl (by simpa using unhydrated)
    cases unmarked _ (all ▸ mark)
  · rw [path_channel, waiting_of_source run idle source] at waits
    cases waits

/-- First lists of any length pass, through a channel of any size: when startup and a
source have begun and the stream of every planned kind has yielded its mark, the gate is
settled as soon as nothing can move. -/
theorem settled_of_idle (run : conduct.Run (ofPlan options plan) past w)
    (started : ∃ (t : TaskId) (state : Startup), w.tasks[t]? = some (.startup state))
    (sourced : ∃ (t : TaskId) (state : Source) (recording : Bool),
      w.tasks[t]? = some (.source state recording))
    (listed : ∀ watch ∈ plan.watches, .ok .hydrated ∈ streamItems watch.kind.gvk past)
    (idle : Cooperative.Idle w) : w.gate ≠ .pending := by
  obtain ⟨t, startup, begun⟩ := started
  obtain ⟨v, source, recording, receives⟩ := sourced
  have watchful := watchful_of_run run
  have grounded := watchful.grounded t _ begun
  have blocked := watchful.blocked idle begun
  cases startup with
  | fresh => exact blocked.elim
  | ended result =>
      cases result with
      | ok r => exact grounded.1
      | error e => exact grounded.1
  | hydrating r pending due =>
      obtain ⟨-, manned, planned, -⟩ := grounded
      obtain ⟨entry, rest, q, rfl, pump, kind, unhydrated, live⟩ := manned.of_pends blocked.2
      obtain ⟨watch, member, same⟩ := planned entry (List.mem_cons_self ..)
      have mark := listed watch ((vouched_of_run run).planned ▸ member)
      rw [same, ← kind] at mark
      obtain told | ended := hydrated_of_mark run idle receives pump mark
      · cases unhydrated.symm.trans told
      · exact absurd ended live

def secret : Gvk := ⟨"", "v1", "Secret"⟩

/-- A plan that passes every object of two kinds on. -/
def twoKinds : WatchPlan where
  watches := everyConfigMap.watches ++
    [⟨⟨.core "v1" "secrets", .ofGvk secret "secrets", true⟩,
      [⟨"owner", { id := .core "v1" "secrets" }⟩]⟩]

/-- A stream with a mark has yielded it. -/
theorem mark_of_any {items : List StreamItem} (any : items.any StreamItem.isMark = true) :
    .ok .hydrated ∈ items := by
  obtain ⟨item, member, mark⟩ := List.any_eq_true.1 any
  exact eq_of_isMark mark ▸ member

/-- The first lists of two kinds, three changes and one, pass through room for one
change. -/
def crowdedLists : List (Happening Command) :=
  .command .run :: [0, 0, 1, 1, 2, 2, 3, 4].map .move ++
  ["a", "b", "c"].map (fun name => .command (.arrive configMap
    (.item (.ok (.change (.added (namedObject name "1"))))))) ++
  [.command (.arrive configMap (.item (.ok .hydrated))),
    .command (.arrive secret (.item (.ok (.change (.added (namedObject "s" "1")))))),
    .command (.arrive secret (.item (.ok .hydrated)))] ++
  [3, 3, 4, 1, 1, 3, 3, 1, 1, 4, 4, 4, 1, 1, 2, 3, 3, 3, 1, 1, 2, 0, 0, 0, 5].map .move

theorem settled_of_crowdedLists :
    ∃ past w, conduct.Run (ofPlan slowOptions twoKinds) past w ∧ slowOptions.capacity = 1 ∧
      (streamItems configMap past).length = 4 ∧ (streamItems secret past).length = 2 ∧
      (∃ (t : TaskId) (state : Startup), w.tasks[t]? = some (.startup state)) ∧
      (∃ (t : TaskId) (state : Source) (recording : Bool),
        w.tasks[t]? = some (.source state recording)) ∧
      (∀ watch ∈ twoKinds.watches, .ok .hydrated ∈ streamItems watch.kind.gvk past) ∧
      Cooperative.Idle w ∧ w.gate ≠ .pending := by
  have begun : conduct.Run (ofPlan slowOptions twoKinds) [] (ofPlan slowOptions twoKinds) := .start
  obtain ⟨past, w, run, items, items', first, second, startup, source, idle⟩ :
      ∃ past w, conduct.Run (ofPlan slowOptions twoKinds) past w ∧
        (streamItems configMap past).length = 4 ∧ (streamItems secret past).length = 2 ∧
        (streamItems configMap past).any StreamItem.isMark = true ∧
        (streamItems secret past).any StreamItem.isMark = true ∧
        (w.startupResult? 2).isSome = true ∧
        (w.tasks[1]?.any fun task => task.fills .source && !task.fills .pipeline) = true ∧
        w.shop.schedule.ready = [] :=
    ⟨_, _, begun.follow crowdedLists (by decide +kernel), by decide +kernel⟩
  have started : ∃ (t : TaskId) (state : Startup), w.tasks[t]? = some (.startup state) := by
    rw [startupResult?] at startup
    split at startup
    · exact ⟨2, _, ‹_›⟩
    · cases startup
  have sourced : ∃ (t : TaskId) (state : Source) (recording : Bool),
      w.tasks[t]? = some (.source state recording) := by
    obtain ⟨task, found, sort⟩ := (Option.any_eq_true _ _).1 source
    cases task <;> simp [EngineTask.fills] at sort
    exact ⟨1, _, _, found⟩
  have listed : ∀ watch ∈ twoKinds.watches, .ok .hydrated ∈ streamItems watch.kind.gvk past := by
    intro watch member
    obtain rfl | last := List.mem_cons.1 member
    · exact mark_of_any first
    · cases List.mem_singleton.1 last
      exact mark_of_any second
  have settled := settled_of_idle run started sourced listed (idle_iff.2 idle)
  exact ⟨past, w, run, rfl, items, items', started, sourced, listed, idle_iff.2 idle, settled⟩

end ResourceWatch.Engine
