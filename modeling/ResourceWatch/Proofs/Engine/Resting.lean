import ResourceWatch.Proofs.Engine.Attention
import ResourceWatch.Proofs.Engine.Tasks

/-!
# A task rests only when it is blocked

Every task that goes on heeds the others, and rests only when going on again would get
it no further. So at every moment of a run every task is ready or blocked: no wake-up is
lost. For the source this needs that there is one source at most, because the channel
remembers only one task that waits for a change.
-/

namespace ResourceWatch

namespace EngineTask

/-- A task is of the sort of another one. A pump is what the other one can become; a source
hands its keys to the same queue; and no pipeline begins again. -/
def Resembles : EngineTask → EngineTask → Prop
  | .pump q, .pump q' => q.Grows q'
  | .source _ recording, .source _ recording' => recording' = recording
  | .pipeline state, .pipeline state' => state' = .fresh → state = .fresh
  | .startup _, .startup _ | .waiter _, .waiter _ | .hydration _, .hydration _
  | .join _, .join _ | .worker _, .worker _ | .delayed .., .delayed .. => True
  | _, _ => False

/-- What a task can become: one of its sort, and nothing else than it is if it has
ended. -/
structure Becomes (task new : EngineTask) : Prop where
  resembles : task.Resembles new
  final : task.isEnded = true → new = task

theorem Resembles.refl (task : EngineTask) : task.Resembles task := by
  cases task with
  | pump q => exact Pump.Grows.refl q
  | _ => simp [Resembles]

theorem Becomes.refl (task : EngineTask) : task.Becomes task := ⟨.refl task, fun _ => rfl⟩

theorem Becomes.of {task new : EngineTask} (resembles : task.Resembles new)
    (runs : task.isEnded = false) : task.Becomes new := ⟨resembles, by simp [runs]⟩

theorem Resembles.trans {task new newer : EngineTask} (h : task.Resembles new)
    (h' : new.Resembles newer) : task.Resembles newer := by
  cases task <;> cases new <;> cases newer <;>
    first | exact Pump.Grows.trans h h' | simp_all [Resembles]

end EngineTask

/-- Whoever is told that the gate has failed is told either of two things. -/
theorem SyncState.error_of_answer? {s : SyncState} {fired : Bool} {e : WatchError}
    (told : s.answer? fired = some (.error e)) : e = .cancelled ∨ e = .syncAborted := by
  cases s <;> cases fired <;> simp_all [answer?]

namespace Engine

variable {w w' w'' : Engine} {t u : TaskId} {task new : EngineTask} {actor : Option TaskId}
  {born : EngineTask → Prop}

theorem Heeds.weaken (h : Heeds none born w w') (actor : Option TaskId) :
    Heeds actor born w w' :=
  ⟨h.desk, h.lasts, h.length, fun u _ => h.others u (by simp), fun u _ => h.holds u (by simp),
    fun u task late _ => h.new u task late (by simp)⟩

theorem Heeds.found (h : Heeds actor born w w') (other : actor ≠ some u)
    (found : w.tasks[u]? = some task) (no_pump : ∀ q, task ≠ .pump q) :
    w'.tasks[u]? = some task := by
  obtain ⟨q, same, -⟩ | ⟨same, -⟩ := h.others u other task found
  · exact absurd same (no_pump q)
  · exact same

def Evolves (w w' : Engine) : Prop :=
  ∀ (t : TaskId) (task : EngineTask), w.tasks[t]? = some task →
    ∃ new, w'.tasks[t]? = some new ∧ task.Becomes new

theorem Evolves.final (evolves : w.Evolves w') (found : w.tasks[t]? = some task)
    (ended : task.isEnded = true) : w'.tasks[t]? = some task := by
  obtain ⟨new, found', becomes⟩ := evolves t task found
  exact becomes.final ended ▸ found'

theorem setTask_self (found : w.tasks[t]? = some task) (new : EngineTask) :
    (w.setTask t new).tasks[t]? = some new :=
  List.getElem?_set_self (List.getElem?_eq_some_iff.1 found).1

theorem evolves_setTask (found : w.tasks[t]? = some task) (becomes : task.Becomes new) :
    w.Evolves (w.setTask t new) := by
  intro u other there
  by_cases here : t = u
  · subst here
    obtain rfl := Option.some.inj (found.symm.trans there)
    exact ⟨new, setTask_self found new, becomes⟩
  · exact ⟨other, by rw [setTask, List.getElem?_set_ne here, there], .refl other⟩

/-- If the one that acts can have become what it is, so can everybody. -/
theorem Heeds.evolves (h : Heeds actor born w w')
    (turn : ∀ u task, actor = some u → w.tasks[u]? = some task →
      ∃ new, w'.tasks[u]? = some new ∧ task.Becomes new) : w.Evolves w' := by
  intro u task found
  by_cases acts : actor = some u
  · exact turn u task acts found
  · obtain ⟨q, rfl, live, -, told⟩ | ⟨same, -⟩ := h.others u acts task found
    · exact ⟨_, told, .of ⟨rfl, id, fun _ => rfl⟩ (by simpa [EngineTask.isEnded] using live)⟩
    · exact ⟨task, same, .refl task⟩

/-- There is a task of the sort of another one. -/
def Has (w : Engine) (t : TaskId) (like : EngineTask) : Prop :=
  ∃ task, w.tasks[t]? = some task ∧ like.Resembles task

theorem Has.evolves {like : EngineTask} (h : w.Has t like) (evolves : w.Evolves w') :
    w'.Has t like := by
  obtain ⟨task, found, resembles⟩ := h
  obtain ⟨new, found', becomes⟩ := evolves t task found
  exact ⟨new, found', resembles.trans becomes.resembles⟩

theorem Has.source_ended (has : w.Has t (.source .fresh false)) (ended : w.hasEnded t = true) :
    ∃ recording, w.tasks[t]? = some (.source .ended recording) := by
  obtain ⟨task, found, resembles⟩ := has
  cases task with
  | source state recording =>
      cases state with
      | ended => exact ⟨recording, found⟩
      | fresh | running => simp [hasEnded, found, EngineTask.isEnded] at ended
  | _ => exact resembles.elim

theorem Has.worker_stopped (has : w.Has t (.worker .asking)) (ended : w.hasEnded t = true) :
    w.tasks[t]? = some (.worker .stopped) := by
  obtain ⟨task, found, resembles⟩ := has
  cases task with
  | worker state =>
      cases state with
      | stopped => exact found
      | asking | working => simp [hasEnded, found, EngineTask.isEnded] at ended
  | _ => exact resembles.elim

theorem Has.pump_ended {gvk : Gvk} (has : w.Has t (.pump { gvk })) (ended : w.hasEnded t = true) :
    ∃ q, w.tasks[t]? = some (.pump q) ∧ q.state = .ended := by
  obtain ⟨task, found, resembles⟩ := has
  cases task with
  | pump q => exact ⟨q, found, by simpa [hasEnded, found, EngineTask.isEnded] using ended⟩
  | _ => exact resembles.elim

/-- Every stream that is named has its pump. -/
structure Manned (w : Engine) (pumps : List TaskId) (pending : List (Gvk × TaskId)) : Prop where
  pumps : ∀ t ∈ pumps, ∃ gvk, w.Has t (.pump { gvk })
  pending : ∀ entry ∈ pending, w.Has entry.2 (.pump { gvk := entry.1 })

variable {pumps pumps' : List TaskId} {pending rest : List (Gvk × TaskId)}

theorem Manned.evolves (h : w.Manned pumps pending) (evolves : w.Evolves w') :
    w'.Manned pumps pending :=
  ⟨fun t member => (h.pumps t member).imp fun _ there => there.evolves evolves,
    fun entry member => (h.pending entry member).evolves evolves⟩

theorem Manned.mono (h : w.Manned pumps pending) (fewer : pumps' ⊆ pumps)
    (less : rest ⊆ pending) : w.Manned pumps' rest :=
  ⟨fun t member => h.pumps t (fewer member), fun entry member => h.pending entry (less member)⟩

/-- The next of the streams that are waited for has a pump that has told nothing. -/
theorem Manned.of_pends (h : w.Manned pumps pending) (pends : w.Pends pending) :
    ∃ entry rest q, pending = entry :: rest ∧ w.tasks[entry.2]? = some (.pump q) ∧
      q.gvk = entry.1 ∧ q.hydrated = false ∧ q.state ≠ .ended := by
  cases pending with
  | nil => exact pends.elim
  | cons entry rest =>
      obtain ⟨task, found, untold⟩ := pends
      obtain ⟨task', found', resembles⟩ := h.pending entry (List.mem_cons_self ..)
      obtain rfl := Option.some.inj (found.symm.trans found')
      cases task with
      | pump q =>
          have untold : q.hydrated = false ∧ q.state ≠ .ended := by
            simpa [EngineTask.isUntold] using untold
          exact ⟨entry, rest, q, rfl, found, resembles.kind, untold⟩
      | _ => cases untold

/-- Every stream that is named is of a kind of the plan. -/
def Planned (w : Engine) (pending : List (Gvk × TaskId)) : Prop :=
  ∀ entry ∈ pending, ∃ watch ∈ w.plan.watches, watch.kind.gvk = entry.1

/-- What has led to where a task stands. Those whom it names are what it takes them for;
and whoever has ended has done what is done last. -/
def Grounded (w : Engine) : EngineTask → Prop
  | .source .ended _ => w.channel.closed = true
  | .startup (.hydrating r pending _) =>
    r.pending = [] ∧ w.Manned r.pumps pending ∧ w.Planned pending ∧ w.spare = false
  | .startup (.ended (.ok r)) => w.gate ≠ .pending ∧ w.Manned r.pumps [] ∧ w.spare = false
  | .startup (.ended (.error _)) => w.gate ≠ .pending ∧ w.spare = false
  | .waiter (some (.error e)) => e = .cancelled ∨ e = .syncAborted
  | .hydration (.hydrating pending ..) => w.Manned [] pending
  | .join (.joining pumps) => w.Manned pumps []
  | .pipeline (.syncing source startup) | .pipeline (.failing source startup)
  | .pipeline (.opening source startup) =>
    w.Has source (.source .fresh false) ∧ w.Has startup (.startup .fresh)
  | .pipeline (.draining source _) => w.Has source (.source .fresh false)
  | .pipeline (.running source worker r) =>
    w.Has source (.source .fresh false) ∧ w.Has worker (.worker .asking) ∧ w.Manned r.pumps [] ∧
      w.spare = false
  | .pipeline (.stopping source worker r _) =>
    w.Has source (.source .fresh false) ∧ w.Has worker (.worker .asking) ∧ w.Manned r.pumps [] ∧
      w.fired = true ∧ w.shop.queue.closed = true
  | .worker .stopped => w.shop.queue.closed = true
  | _ => True

/-- What has led somewhere does not cease to be so. -/
theorem Grounded.evolves (h : w.Grounded task) (evolves : w.Evolves w') (lasts : Lasts w w')
    (shut : w.shop.queue.closed = true → w'.shop.queue.closed = true) : w'.Grounded task := by
  have gate (settled : w.gate ≠ .pending) : w'.gate ≠ .pending := lasts.gate settled ▸ settled
  unfold Grounded at h ⊢
  split
  · exact lasts.closed h
  · refine ⟨h.1, h.2.1.evolves evolves, fun entry member => ?_, lasts.spare h.2.2.2⟩
    rw [lasts.plan]
    exact h.2.2.1 entry member
  · exact ⟨gate h.1, h.2.1.evolves evolves, lasts.spare h.2.2⟩
  · exact ⟨gate h.1, lasts.spare h.2⟩
  · exact h
  · exact h.evolves evolves
  · exact h.evolves evolves
  · exact ⟨h.1.evolves evolves, h.2.evolves evolves⟩
  · exact ⟨h.1.evolves evolves, h.2.evolves evolves⟩
  · exact ⟨h.1.evolves evolves, h.2.evolves evolves⟩
  · exact Has.evolves h evolves
  · exact ⟨h.1.evolves evolves, h.2.1.evolves evolves, h.2.2.1.evolves evolves,
      lasts.spare h.2.2.2⟩
  · exact ⟨h.1.evolves evolves, h.2.1.evolves evolves, h.2.2.1.evolves evolves,
      lasts.fired h.2.2.2.1, shut h.2.2.2.2⟩
  · exact shut h
  · trivial

theorem Grounded.heeds (h : w.Grounded task) (evolves : w.Evolves w')
    (heeds : Heeds actor born w w') : w'.Grounded task :=
  h.evolves evolves heeds.lasts heeds.desk.closed

/-- What a task comes to that goes on: it heeds the others, has grounds to stand where it
does then, and rests only if it is blocked. -/
structure Attends (born : EngineTask → Prop) (t : TaskId) (w : Engine)
    (move : Engine × Progress) : Prop where
  heeds : Heeds (some t) born w move.1
  turn : ∀ task, w.tasks[t]? = some task → ∃ new, move.1.tasks[t]? = some new ∧
    task.Becomes new ∧ move.1.Grounded new ∧ (move.2 = .rests → move.1.Blocked t new)

/-- A task becomes another one, and is ready or blocked. -/
theorem Attends.turns {progress : Progress} (found : w.tasks[t]? = some task)
    (h : Heeds (some t) born w w') (turned : w'.tasks[t]? = some new) (becomes : task.Becomes new)
    (grounded : w.Evolves w' → w'.Grounded new)
    (blocked : progress = .rests → w'.Blocked t new) : Attends born t w (w', progress) := by
  have evolves : w.Evolves w' := by
    refine h.evolves ?_
    rintro u old ⟨⟩ found'
    obtain rfl := Option.some.inj (found.symm.trans found')
    exact ⟨new, turned, becomes⟩
  refine ⟨h, fun old found' => ?_⟩
  obtain rfl := Option.some.inj (found.symm.trans found')
  exact ⟨new, turned, becomes, grounded evolves, blocked⟩

/-- A task that goes on at once need not be blocked. -/
theorem Attends.goesOn (found : w.tasks[t]? = some task) (h : Heeds (some t) born w w')
    (turned : w'.tasks[t]? = some new) (becomes : task.Becomes new)
    (grounded : w.Evolves w' → w'.Grounded new) : Attends born t w (w', .goesOn) :=
  .turns found h turned becomes grounded (by simp)

/-- A task rests as another one, which is blocked. -/
theorem Attends.rests (found : w.tasks[t]? = some task) (h : Heeds (some t) born w w')
    (turned : w'.tasks[t]? = some new) (becomes : task.Becomes new)
    (grounded : w.Evolves w' → w'.Grounded new) (blocked : w'.Blocked t new) :
    Attends born t w (w', .rests) :=
  .turns found h turned becomes grounded fun _ => blocked

/-- A task that is blocked rests, and nothing happens. -/
theorem Attends.stays (found : w.tasks[t]? = some task) (grounded : w.Grounded task)
    (blocked : w.Blocked t task) : Attends born t w (w, .rests) :=
  .rests found (heeds_refl w) found (.refl task) (fun _ => grounded) blocked

/-- What heeds everybody may be done first. -/
theorem Attends.after {move : Engine × Progress} (h : Heeds none born w w')
    (found : w.tasks[t]? = some task) (no_pump : ∀ q, task ≠ .pump q)
    (attends : Attends born t w' move) : Attends born t w move := by
  refine ⟨(h.weaken (some t)).trans attends.heeds, fun old found' => ?_⟩
  obtain rfl := Option.some.inj (found.symm.trans found')
  exact attends.turn task (h.found (by simp) found no_pump)

section Pumps

theorem heeds_offer (w : Engine) (t : TaskId) (q : Pump) (e : ChangeEvent)
    (found : w.tasks[t]? = some (.pump q)) (live : q.state ≠ .ended) :
    Heeds (some t) born w (w.offer t q e).1 := by
  have turn (w' : Engine) (same : w'.tasks = w.tasks) (state : PumpState) (lives : state ≠ .ended) :
      Heeds (some t) born w' (w'.setTask t (.pump { q with state })) := by
    have found' : w'.tasks[t]? = some (.pump q) := same ▸ found
    refine heeds_setTask found' ?_ ?_ ?_ ?_
    · simp [EngineTask.isLivePump, lives]
    · simp [EngineTask.isEnded, lives]
    · exact id
    · simp [EngineTask.isUntold, lives, live]
  obtain ⟨-, offered⟩ | ⟨unclosed, -, offered⟩ | ⟨-, -, offered⟩ | ⟨-, -, -, offered⟩ :=
    w.channel.offer_cases t e
  · have freed : Heeds (some t) born w { w with channel := { w.channel with
        granted := w.channel.granted.erase t } } := heeds_channel id id rfl
    have told := freed.trans (heeds_note _ (.handled .closed))
    simp only [offer, offered]
    exact told.trans (heeds_endPump _ t q)
  · have enters : Heeds (some t) born w _ := heeds_enter
      (c := { w.channel with granted := w.channel.granted.erase t }.put e) unclosed rfl (.entered e)
    have told := enters.trans (heeds_note _ (.handled .forwarded))
    simp only [offer, offered]
    exact told.trans (turn _ (by rfl) .listening (by simp))
  · simp only [offer, offered]
    exact turn w rfl (.sending e) (by simp)
  · have queued : Heeds (some t) born w { w with channel := { w.channel with
        waiting := w.channel.waiting ++ [t] } } := heeds_channel id id rfl
    simp only [offer, offered]
    exact queued.trans (turn _ (by rfl) (.sending e) (by simp))

theorem heeds_deliver (w : Engine) (t : TaskId) (q : Pump) (item : StreamItem)
    (found : w.tasks[t]? = some (.pump q)) (live : q.state ≠ .ended) :
    Heeds (some t) born w (w.deliver t q item).1 := by
  rcases item with e | _ | _
  · exact heeds_note w .streamFailed
  · rename_i n
    simp only [deliver]
    have told : Heeds (some t) born w (w.log (w.plan.filterTable.judge q.gvk n).2) :=
      heeds_log w _
    split
    · exact told.trans (heeds_note _ _)
    · exact told.trans (heeds_offer _ t q _ (by rwa [log_tasks]) live)
  · exact heeds_wakeAwaiting found (by simp [EngineTask.isLivePump])

theorem heeds_listen (w : Engine) (t : TaskId) (q : Pump)
    (found : w.tasks[t]? = some (.pump q)) (live : q.state ≠ .ended) :
    Heeds (some t) born w (w.listen t q).1 := by
  simp only [listen]
  split
  · split
    · exact heeds_refl w
    · exact heeds_endPump w t q
  · rename_i item rest _
    have taken : Heeds (some t) born w { w with
        provider := w.provider.put { w.provider.feed q.gvk with arrivals := rest } } :=
      heeds_alike (.refl _) rfl rfl rfl
    exact taken.trans (heeds_deliver _ t q item found live)
  · exact heeds_alike (.of (.refl _) rfl rfl) rfl rfl rfl

/-- A pump goes on. What it waits for is seen to on the path. -/
theorem attends_actPump (ready : t ∈ w.shop.schedule.ready) (q : Pump)
    (found : w.tasks[t]? = some (.pump q)) : Attends born t w (w.actPump t q) := by
  constructor
  · simp only [actPump]
    split
    · exact heeds_refl w
    · split
      · exact heeds_endPump w t q
      · rename_i state _
        exact heeds_listen w t q found (by simp [state])
    · split
      · exact heeds_endPump w t q
      · rename_i state _
        exact heeds_offer w t q _ found (by simp [state])
  · intro task found'
    obtain rfl := Option.some.inj (found.symm.trans found')
    by_cases ended : q.state = .ended
    · have same : w.actPump t q = (w, .rests) := by simp [actPump, ended]
      rw [same]
      exact ⟨_, found, .refl _, trivial, fun _ => trivial⟩
    · obtain ⟨q', pump, grows⟩ := Path.Stays.steps
        (steps_actPump False (role_eq_pump.2 found) ready).1 t q (role_eq_pump.2 found)
      refine ⟨_, role_eq_pump.1 pump, .of grows ?_, trivial, fun _ => trivial⟩
      simpa [EngineTask.isEnded] using ended

end Pumps

@[simp] theorem log_terms (w : Engine) (events : List LogEvent) :
    (w.log events).terms = w.terms := by
  rw [log]
  induction events generalizing w with
  | nil => rfl
  | cons e events ih => rw [List.foldl_cons, ih]; rfl

section Source

variable {state : Source} {recording : Bool}
  (found : w.tasks[t]? = some (.source state recording))
  (sole : ∀ (u : TaskId) recording, w.tasks[u]? = some (.source .running recording) → u = t)

include found

theorem source_self (c : Channel) (next : Source) :
    ({ w with channel := c }.setTask t (.source next recording)).tasks[t]? =
      some (.source next recording) :=
  setTask_self (w := { w with channel := c }) found _

include sole

/-- A source receives, and whoever is given room is made ready. -/
theorem heeds_source_turn {c : Channel} (woken : List TaskId) (events : List LogEvent)
    (closed : w.channel.closed = true → c.closed = true) :
    Heeds (some t) born w ((({ w with channel := c }.setTask t
      (.source .running recording)).wakeAll woken).log events) := by
  refine Heeds.trans ?_ ((heeds_wakeAll _ woken).trans (heeds_log _ events))
  refine heeds_turn rfl (.refl _) (.of_terms rfl closed) rfl rfl rfl
    (fun u r ne there => absurd (sole u r there) ne) ?_
  exact .inl (.of_turn found (source_self found c .running) (fun _ => rfl) id id)

theorem attends_source_stop (runs : state ≠ .ended) (e : LogEvent) : Attends born t w
    (((({ w with channel := w.channel.drop.1 }.setTask t (.source .ended recording)).wakeAll
      w.channel.drop.2).log [e]).wakeAwaiting t, .rests) := by
  refine .rests found ?_ (source_self found w.channel.drop.1 .ended) (.of rfl ?_) (fun _ => rfl)
    trivial
  · refine heeds_turn rfl (.of ?_ rfl rfl) (.of_terms rfl fun _ => rfl) rfl rfl rfl
      (fun u r ne there => absurd (sole u r there) ne) (.inr fun u task ne there awaits => ?_)
    · exact (Schedule.serves_wakeAll _ _).trans (Schedule.serves_wakeAll _ _)
    · have stopped : ({ w with channel := w.channel.drop.1 }.setTask t
          (.source .ended recording)).tasks = w.tasks.set t (.source .ended recording) := rfl
      exact mem_wakeAwaiting stopped ne there awaits
  · cases state <;> simp_all [EngineTask.isEnded]

theorem attends_actSource (grounded : w.Grounded (.source state recording)) :
    Attends born t w (w.actSource t state recording) := by
  cases state with
  | ended => exact .stays found grounded trivial
  | fresh =>
      exact .goesOn found (heeds_source_turn found sole [] [.sourceStarting] id)
        (source_self found w.channel .running) (.of rfl rfl) fun _ => trivial
  | running =>
      have self (c : Channel) := source_self found c .running
      by_cases fired : w.fired = true
      · simpa [actSource, Source.act, Source.stop, Source.after, Source.progress, fired]
          using attends_source_stop found sole (by simp) .sourceCancelled
      · cases received : w.channel.receive? with
        | none =>
            by_cases senders : w.hasSenders = true
            · let w₁ := { w with channel := { w.channel with listener := some t } }.setTask t
                (.source .running recording)
              have unfired : w.fired = false := by simpa using fired
              have empty : w.channel.buffer = [] := receive?_eq_none.1 received
              have still : w₁.hasSenders = true := hasSenders_of_turn found rfl rfl id senders
              have waits : Attends born t w ((w₁.wakeAll []).log [], .rests) :=
                .rests found (heeds_source_turn found sole [] [] id) (self _) (.refl _)
                  (fun _ => trivial) ⟨unfired, empty, .inr ⟨rfl, still⟩⟩
              simpa [actSource, Source.act, Source.after, Source.progress, fired, received, senders,
                w₁] using waits
            · simpa [actSource, Source.act, Source.stop, Source.after, Source.progress, fired,
                received, senders] using attends_source_stop found sole (by simp) .sourceClosed
        | some got =>
            obtain ⟨e, c, woken⟩ := got
            have closed : w.channel.closed = true → c.closed = true :=
              (Path.receive?_closed received).trans
            cases known : ObjectKey.ofReference? e.reference with
            | none =>
                have skips : Heeds (some t) born w _ := heeds_source_turn found sole woken.toList
                  [.kindUnknown e.reference.joinedName e.owner] closed
                have runs := Attends.goesOn found skips (by simpa using self c) (.refl _)
                  fun _ => trivial
                simpa [actSource, Source.act, Source.after, Source.progress, fired, received, known]
                  using runs
            | some key =>
                let w₁ := ((({ w with channel := c }.setTask t (.source .running recording)).wakeAll
                  woken.toList).log [.queueing key e.owner]).note (.keyed key.encode)
                have hands : Heeds (some t) born w w₁ :=
                  (heeds_source_turn found sole woken.toList [.queueing key e.owner] closed).trans
                    (heeds_note _ _)
                have self₁ : w₁.tasks[t]? = some (.source .running recording) := self c
                by_cases recorder : recording = true
                · have records : Heeds (some t) born w₁
                      { w₁ with recorded := w₁.recorded ++ [key.encode] } :=
                    heeds_alike (.refl _) rfl rfl rfl
                  have runs := Attends.goesOn found (hands.trans records) self₁ (.refl _)
                    fun _ => trivial
                  simpa [actSource, Source.act, Source.after, Source.progress, fired, received,
                    known, recorder, w₁] using runs
                · have runs := Attends.goesOn found (hands.trans (heeds_push w₁ key.encode)) self₁
                    (.refl _) fun _ => trivial
                  simpa [actSource, Source.act, Source.after, Source.progress, fired, received,
                    known, recorder, w₁] using runs

end Source

section Startup

/-- Opening streams adds pumps, or tells them to end. -/
theorem heeds_openStreams (pumps : ∀ gvk, born (.pump { gvk })) (w : Engine) (r : Registration)
    (watches : List PlannedWatch) : Heeds actor born w (w.openStreams r watches).1 := by
  induction watches generalizing w r with
  | nil => exact heeds_refl w
  | cons watch rest ih =>
      rw [openStreams]
      split
      · exact heeds_abort w _
      · dsimp only
        split
        · rename_i provider e _
          have asked : Heeds actor born w { w with provider } := heeds_alike (.refl _) rfl rfl rfl
          exact asked.trans (heeds_abort _ _)
        · rename_i provider cache _
          have asked : Heeds actor born w { w with provider, shop := { w.shop with cache } } :=
            heeds_alike (.of (.refl _) rfl rfl) rfl rfl rfl
          have opened := asked.trans (heeds_spawn (pumps watch.kind.gvk) rfl)
          exact opened.trans (ih _ _)

theorem heeds_register (pumps : ∀ gvk, born (.pump { gvk })) (w : Engine) :
    Heeds actor born w w.register.1 := by
  have opened : Heeds actor born w (w.openStreams {} w.plan.watches).1 :=
    heeds_openStreams pumps w {} _
  rw [register]
  split
  all_goals
    rename_i w₁ _ answered
    rw [answered] at opened
  · exact opened.trans (heeds_alike (.refl _) rfl rfl rfl)
  · exact opened

theorem manned_openStreams {r r' : Registration} {watches : List PlannedWatch}
    (manned : w.Manned r.pumps r.pending) (opened : w.openStreams r watches = (w', .ok r')) :
    w'.Manned r'.pumps r'.pending := by
  induction watches generalizing w r with
  | nil =>
      cases opened
      exact manned
  | cons watch rest ih =>
      rw [openStreams] at opened
      split at opened
      · cases opened
      · dsimp only at opened
        split at opened
        · cases opened
        · rename_i provider cache _
          let pump : EngineTask := .pump { gvk := watch.kind.gvk }
          let w₁ := { w with provider, shop := { w.shop with cache } }.spawn pump
          have asked : Heeds none (fun _ => True) w
              { w with provider, shop := { w.shop with cache } } :=
            heeds_alike (.of (.refl _) rfl rfl) rfl rfl rfl
          have spawned : Heeds none (fun _ => True) w w₁ :=
            asked.trans (heeds_spawn trivial rfl)
          have evolves : w.Evolves w₁ := spawned.evolves (by simp)
          have new : w₁.Has w.nextTask pump :=
            ⟨pump, List.getElem?_concat_length, .refl pump⟩
          refine ih ⟨fun t member => ?_, fun entry member => ?_⟩ opened
          · obtain old | last := List.mem_append.1 member
            · exact (manned.pumps t old).imp fun _ there => there.evolves evolves
            · exact ⟨_, List.mem_singleton.1 last ▸ new⟩
          · obtain old | last := List.mem_append.1 member
            · exact (manned.pending entry old).evolves evolves
            · exact List.mem_singleton.1 last ▸ new

theorem planned_openStreams {r r' : Registration} {watches : List PlannedWatch}
    (opened : w.openStreams r watches = (w', .ok r')) :
    ∀ entry ∈ r'.pending, entry ∈ r.pending ∨ ∃ watch ∈ watches, watch.kind.gvk = entry.1 := by
  induction watches generalizing w r with
  | nil =>
      cases opened
      exact fun _ => .inl
  | cons watch rest ih =>
      rw [openStreams] at opened
      split at opened
      · cases opened
      · dsimp only at opened
        split at opened
        · cases opened
        · intro entry member
          obtain known | ⟨other, later, kind⟩ := ih opened entry member
          · obtain old | last := List.mem_append.1 known
            · exact .inl old
            · exact .inr ⟨watch, List.mem_cons_self .., by rw [List.mem_singleton.1 last]⟩
          · exact .inr ⟨other, List.mem_cons_of_mem _ later, kind⟩

theorem planned_register {r : Registration} (registered : w.register = (w', .ok r)) :
    w'.Planned r.pending := by
  have opened : Heeds none (fun _ => True) w w.register.1 := heeds_register (by simp) w
  rw [registered] at opened
  intro entry member
  rw [opened.lasts.plan]
  rw [register] at registered
  split at registered
  · rename_i w₁ r₁ opens
    cases registered
    obtain none | planned := planned_openStreams opens entry member
    · cases none
    · exact planned
  · cases registered

theorem manned_register {r : Registration} (registered : w.register = (w', .ok r)) :
    w'.Manned r.pumps r.pending := by
  rw [register] at registered
  split at registered
  · rename_i w₁ r₁ opened
    cases registered
    have manned : w₁.Manned r.pumps r.pending :=
      manned_openStreams (r := {}) ⟨by simp, by simp⟩ opened
    exact ⟨manned.pumps, manned.pending⟩
  · cases registered

theorem settleGate_settled (w : Engine) {outcome : SyncState} (settles : outcome ≠ .pending) :
    (w.settleGate outcome).gate ≠ .pending := by
  show w.gate.settle outcome ≠ .pending
  cases w.gate <;> simp [SyncState.settle, settles]

theorem attends_endStartup {state : Startup} (found : w.tasks[t]? = some (.startup state))
    (runs : (EngineTask.startup state).isEnded = false) (result : Except WatchError Registration)
    (grounded : w.Grounded (.startup (.ended result))) :
    Attends born t w (w.endStartup t result, .rests) := by
  have ends (w' : Engine) (same : w'.tasks = w.tasks) (h : Heeds (some t) born w w') :
      Attends born t w ((w'.setTask t (.startup (.ended result))).wakeAwaiting t, .rests) := by
    have found' : w'.tasks[t]? = some (.startup state) := same ▸ found
    have all : Heeds (some t) born w ((w'.setTask t (.startup (.ended result))).wakeAwaiting t) :=
      h.trans (heeds_wakeAwaiting found' (by simp [EngineTask.isLivePump]))
    exact .rests found all (setTask_self found' _) (.of trivial runs)
      (fun evolves => grounded.heeds evolves all) trivial
  simp only [endStartup]
  cases result with
  | error e => exact ends w rfl (heeds_refl w)
  | ok r =>
      dsimp only
      split
      · exact ends { w with kept := some r } rfl
          (heeds_calm (.refl _) (.of_terms rfl id) rfl rfl rfl rfl fun _ _ _ _ _ => id)
      · exact ends w rfl (heeds_refl w)

/-- Waiting has not come to an end if the token has not fired, the next stream has told
nothing, and there is time left. -/
theorem hydration_eq_ok {fired : Bool} {pending rest : List (Gvk × TaskId)} {limit : Duration}
    {due : Nat} :
    w.hydration fired pending limit due = .ok rest ↔
      fired = false ∧ w.hydrate pending = .ok rest ∧ rest ≠ [] ∧ w.now < due := by
  rw [hydration]
  split
  · simp_all
  · rename_i unfired
    split
    · rename_i failed
      simp [failed]
    · rename_i hydrated
      simp +contextual [hydrated, eq_comm]
    · rename_i left none hydrated
      rw [hydrated]
      split
      · rename_i late
        simp only [reduceCtorEq, Except.ok.injEq, false_iff, not_and]
        intro _ _ _
        omega
      · rename_i early
        constructor
        · rintro ⟨⟩
          exact ⟨by simpa using unfired, rfl, none, by omega⟩
        · rintro ⟨-, same, -⟩
          rw [Except.ok.inj same]

theorem subset_of_hydrate {pending rest : List (Gvk × TaskId)}
    (h : w.hydrate pending = .ok rest) : rest ⊆ pending := by
  induction pending with
  | nil =>
      cases h
      exact List.Subset.refl _
  | cons entry pending ih =>
      obtain ⟨gvk, u⟩ := entry
      rw [hydrate] at h
      split at h
      · split at h
        · exact List.subset_cons_of_subset _ (ih h)
        · split at h
          · cases h
          · cases h
            exact List.Subset.refl _
      · cases h

/-- The next stream that is left has told nothing. -/
theorem pends_of_hydrate {pending rest : List (Gvk × TaskId)} (h : w.hydrate pending = .ok rest)
    (some_left : rest ≠ []) : w.Pends rest := by
  induction pending with
  | nil =>
      cases h
      exact absurd rfl some_left
  | cons entry pending ih =>
      obtain ⟨gvk, u⟩ := entry
      rw [hydrate] at h
      split at h
      · rename_i q pump
        split at h
        · exact ih h
        · rename_i unhydrated
          split at h
          · cases h
          · rename_i live
            cases h
            refine ⟨.pump q, role_eq_pump.1 (pump?_eq_some.1 pump), ?_⟩
            simp [EngineTask.isUntold, unhydrated, live]
      · cases h

/-- A task that is no pump is nobody whose first full list is waited for. -/
theorem Pends.setTask {pending : List (Gvk × TaskId)} (h : w.Pends pending)
    (found : w.tasks[t]? = some task) (other : task.isUntold = false) :
    (w.setTask t new).Pends pending := by
  cases pending with
  | nil => exact h
  | cons entry rest =>
      obtain ⟨q, pump, untold⟩ := h
      have ne : t ≠ entry.2 := by
        intro same
        rw [same, pump] at found
        rw [Option.some.inj found, other] at untold
        cases untold
      exact ⟨q, by rw [Engine.setTask, List.getElem?_set_ne ne]; exact pump, untold⟩

theorem attends_actStartup {state : Startup} (found : w.tasks[t]? = some (.startup state))
    (grounded : w.Grounded (.startup state))
    (pumps : state = .fresh → ∀ gvk, born (.pump { gvk })) :
    Attends born t w (w.actStartup t state) := by
  have kept {w' : Engine} (h : Heeds none born w w') :
      w'.tasks[t]? = some (.startup state) := h.found (by simp) found (by simp)
  have evolves {w' : Engine} (h : Heeds none born w w') : w.Evolves w' := h.evolves (by simp)
  cases state with
  | fresh =>
      have opened : Heeds none born w w.register.1 := heeds_register (pumps rfl) w
      simp only [actStartup]
      split
      all_goals
        rename_i w₁ outcome registered
        rw [registered] at opened
      · have silent : Heeds none born (w₁.settleGate .cancelled)
            (w₁.settleGate .cancelled).dropSpare := heeds_dropSpare _
        have closed := (opened.trans (heeds_settleGate w₁ .cancelled)).trans silent
        have settled : (w₁.settleGate .cancelled).gate ≠ .pending := settleGate_settled w₁ (by simp)
        have grounds : (w₁.settleGate .cancelled).dropSpare.Grounded
            (.startup (.ended (.error outcome))) :=
          ⟨fun pending => settled ((silent.lasts.gate settled).symm.trans pending),
            congrArg Terms.spare
              (noticeSilence_terms { w₁.settleGate .cancelled with spare := false })⟩
        exact (attends_endStartup (kept closed) rfl _ grounds).after closed found (by simp)
      · have timed := (opened.trans (heeds_dropSpare w₁)).trans (heeds_setTimer _ t w₁.limit)
        have last : Heeds none born w₁ (w₁.dropSpare.setTimer t w₁.limit).1 :=
          (heeds_dropSpare w₁).trans (heeds_setTimer _ t w₁.limit)
        have manned := (manned_register registered).evolves (last.evolves (by simp))
        have planned := planned_register registered
        have spare : w₁.dropSpare.spare = false :=
          congrArg Terms.spare (noticeSilence_terms { w₁ with spare := false })
        refine .goesOn found ((timed.weaken _).trans (heeds_setTask (kept timed) id ?_ id id))
          (setTask_self (kept timed) _) (.of trivial rfl) fun _ => ?_
        · simp [EngineTask.isEnded]
        · refine ⟨rfl, manned.evolves (evolves_setTask (kept timed) (.of trivial rfl)), ?_, spare⟩
          intro entry member
          exact last.lasts.plan.symm ▸ planned entry member
  | hydrating r pending due =>
      simp only [actStartup]
      split
      · rename_i rest waits
        obtain ⟨unfired, hydrated, some_left, -⟩ := hydration_eq_ok.1 waits
        exact .rests found (heeds_setTask found id id id id) (setTask_self found _)
          (.of trivial rfl)
          (fun e => ⟨grounded.1, (grounded.2.1.evolves e).mono (List.Subset.refl _)
            (subset_of_hydrate hydrated), fun entry member =>
              grounded.2.2.1 entry (subset_of_hydrate hydrated member), grounded.2.2.2⟩)
          ⟨unfired, (pends_of_hydrate hydrated some_left).setTask found rfl⟩
      · have cleared : Heeds none born w (w.clearTimers t) := heeds_clearTimers w t
        have opens : Heeds none born w
            { (w.clearTimers t).settleGate .synced with synced := true } :=
          (cleared.trans (heeds_settleGate _ .synced)).trans (heeds_alike (.refl _) rfl rfl rfl)
        have manned := (grounded.2.1.evolves (evolves opens)).mono (List.Subset.refl _)
          (List.nil_subset _)
        have settled : ((w.clearTimers t).settleGate .synced).gate ≠ .pending :=
          settleGate_settled _ (by simp)
        have grounds : Engine.Grounded { (w.clearTimers t).settleGate .synced with synced := true }
            (.startup (.ended (.ok r))) := ⟨settled, manned, grounded.2.2.2⟩
        exact (attends_endStartup (kept opens) rfl _ grounds).after opens found (by simp)
      · rename_i e _
        have cleared : Heeds none born w (w.clearTimers t) := heeds_clearTimers w t
        have closed := (cleared.trans (heeds_abort _ r.pumps)).trans (heeds_settleGate _ .cancelled)
        have grounds : (((w.clearTimers t).drop r).settleGate .cancelled).Grounded
            (.startup (.ended (.error e))) :=
          ⟨settleGate_settled _ (by simp), closed.lasts.spare grounded.2.2.2⟩
        exact (attends_endStartup (kept closed) rfl _ grounds).after closed found (by simp)
  | ended result =>
      have turned : Heeds (some t) born w (w.setTask t (.startup (.ended result))) :=
        heeds_setTask found id id id id
      exact .rests found turned (setTask_self found _) (.refl _)
        (fun e => grounded.heeds e turned) trivial

end Startup

section Calls

theorem acquire_kept (w : Engine) (t : TaskId) : (w.acquire t).1.kept = w.kept := by
  rw [acquire]
  dsimp only
  split <;> rfl

/-- Whoever is told to wait for the lock does. -/
theorem queues_of_acquire (waits : (w.acquire t).2 = false) : (w.acquire t).1.Queues t := by
  rw [acquire] at waits ⊢
  dsimp only at waits ⊢
  refine ⟨?_, by simpa using waits⟩
  split
  · rename_i there
    simpa using there
  · simp

variable (unawaited : ∀ (u : TaskId) (other : EngineTask), w.tasks[u]? = some other →
  other.awaits t = false)
include unawaited

theorem attends_waiter (found : w.tasks[t]? = some (.waiter none)) :
    Attends born t w (w.setTask t (.waiter (w.gate.answer? w.fired)), .rests) := by
  refine .rests found (heeds_unawaited found rfl unawaited) (setTask_self found _)
    (.of trivial rfl) (fun _ => ?_) ?_
  · cases told : w.gate.answer? w.fired with
    | none => trivial
    | some answer =>
        cases answer with
        | ok => trivial
        | error e => exact SyncState.error_of_answer? told
  · cases told : w.gate.answer? w.fired with
    | none => exact told
    | some => trivial

/-- A call that waits for streams goes on. -/
theorem attends_actHydration {call : HydrationCall}
    (found : w.tasks[t]? = some (.hydration call)) (grounded : w.Grounded (.hydration call))
    (kept : ∀ r, w.kept = some r → w.Manned r.pumps r.pending) :
    Attends born t w (w.actHydration t call) := by
  cases call with
  | locking limit token =>
      have acquired : Heeds none born w (w.acquire t).1 := heeds_acquire w t
      have queues := queues_of_acquire (w := w) (t := t)
      have tasks := w.acquire_tasks t
      have terms := w.acquire_kept t
      simp only [actHydration]
      split
      all_goals
        rename_i w₁ answered
        rw [answered] at acquired queues tasks terms
        have found₁ : w₁.tasks[t]? = some (.hydration (.locking limit token)) := tasks ▸ found
        have unawaited₁ : ∀ (u : TaskId) (other : EngineTask), w₁.tasks[u]? = some other →
            other.awaits t = false := tasks ▸ unawaited
      · exact .rests found (acquired.weaken _) found₁ (.refl _) (fun _ => trivial) (queues rfl)
      · split
        · have released := (acquired.weaken (some t)).trans (heeds_release w₁ t)
          exact .rests found (released.trans (heeds_unawaited found₁ rfl unawaited₁))
            (setTask_self (w := w₁.release t) found₁ _) (.of trivial rfl) (fun _ => trivial) trivial
        · rename_i r registered
          have manned := kept r (terms.symm.trans registered)
          have taken : Heeds (some t) born w₁ { w₁ with kept := some { r with pending := [] } } :=
            heeds_calm (.refl _) (.of_terms rfl id) rfl rfl rfl rfl
              fun _ _ _ _ _ => id
          have timed := ((acquired.weaken _).trans taken).trans (heeds_setTimer _ t limit)
          exact .goesOn found (timed.trans (heeds_unawaited found₁ rfl unawaited₁))
            (setTask_self (w := { w₁ with kept := some { r with pending := [] } }) found₁ _)
            (.of trivial rfl)
            fun e => (manned.evolves e).mono (List.nil_subset _) (List.Subset.refl _)
  | hydrating pending limit due token =>
      simp only [actHydration]
      split
      · rename_i rest waits
        obtain ⟨unfired, hydrated, some_left, -⟩ := hydration_eq_ok.1 waits
        exact .rests found (heeds_unawaited found rfl unawaited) (setTask_self found _)
          (.of trivial rfl)
          (fun e => (Manned.evolves grounded e).mono (List.Subset.refl _)
            (subset_of_hydrate hydrated))
          ⟨unfired, (pends_of_hydrate hydrated some_left).setTask found rfl⟩
      · have cleared : Heeds (some t) born w (w.clearTimers t) := heeds_clearTimers w t
        have released := cleared.trans (heeds_release _ t)
        exact .rests found (released.trans (heeds_unawaited found rfl unawaited))
          (setTask_self (w := (w.clearTimers t).release t) found _) (.of trivial rfl)
          (fun _ => trivial) trivial
  | ended result =>
      exact .rests found (heeds_unawaited found rfl unawaited) (setTask_self found _) (.refl _)
        (fun _ => trivial) trivial
  | dropped =>
      exact .rests found (heeds_unawaited found rfl unawaited) (setTask_self found _) (.refl _)
        (fun _ => trivial) trivial

/-- A call that waits for the streams to end goes on. -/
theorem attends_actJoin {call : JoinCall} (found : w.tasks[t]? = some (.join call))
    (grounded : w.Grounded (.join call))
    (kept : ∀ r, w.kept = some r → w.Manned r.pumps r.pending) :
    Attends born t w (w.actJoin t call) := by
  cases call with
  | locking =>
      have acquired : Heeds none born w (w.acquire t).1 := heeds_acquire w t
      have queues := queues_of_acquire (w := w) (t := t)
      have tasks := w.acquire_tasks t
      have terms := w.acquire_kept t
      simp only [actJoin]
      split
      all_goals
        rename_i w₁ answered
        rw [answered] at acquired queues tasks terms
        have found₁ : w₁.tasks[t]? = some (.join .locking) := tasks ▸ found
        have unawaited₁ : ∀ (u : TaskId) (other : EngineTask), w₁.tasks[u]? = some other →
            other.awaits t = false := tasks ▸ unawaited
      · exact .rests found (acquired.weaken _) found₁ (.refl _) (fun _ => trivial) (queues rfl)
      · split
        · have released := (acquired.weaken (some t)).trans (heeds_release w₁ t)
          exact .rests found (released.trans (heeds_unawaited found₁ rfl unawaited₁))
            (setTask_self (w := w₁.release t) found₁ _) (.of trivial rfl) (fun _ => trivial) trivial
        · rename_i r registered
          have manned := kept r (terms.symm.trans registered)
          have taken : Heeds (some t) born w₁ { w₁ with kept := none } :=
            heeds_calm (.refl _) (.of_terms rfl id) rfl rfl rfl rfl
              fun _ _ _ _ _ => id
          have released := ((acquired.weaken _).trans taken).trans (heeds_release _ t)
          have turned := setTask_self (w := { w₁ with kept := none }.release t) found₁
            (.join (.joining r.pumps))
          exact .goesOn found (released.trans (heeds_unawaited found₁ rfl unawaited₁)) turned
            (.of trivial rfl)
            fun e => (manned.evolves e).mono (List.Subset.refl _) (List.nil_subset _)
  | joining pumps =>
      simp only [actJoin]
      split
      · exact .rests found (heeds_unawaited found rfl unawaited) (setTask_self found _)
          (.of trivial rfl) (fun _ => trivial) trivial
      · rename_i some_live
        exact .stays found grounded (by simpa [Blocked] using some_live)
  | ended found_one =>
      exact .rests found (heeds_unawaited found rfl unawaited) (setTask_self found _) (.refl _)
        (fun _ => trivial) trivial

/-- A push that is put off goes on. -/
theorem attends_delayed {key : String} {push : DelayedPush}
    (found : w.tasks[t]? = some (.delayed key push)) :
    Attends born t w ((w.onDesk fun _ => (push.act w.shop.toDesk t key).1).setTask t
      (.delayed key (push.act w.shop.toDesk t key).2), .rests) := by
  have acts : Heeds (some t) born w (w.onDesk fun _ => (push.act w.shop.toDesk t key).1) :=
    heeds_onDesk (DelayedPush.serves_act _ _ _ _)
  refine .rests found (acts.trans (heeds_unawaited (w := w.onDesk _) found rfl unawaited))
    (setTask_self (w := w.onDesk _) found _) ?_ (fun _ => trivial) ?_
  · cases push with
    | fresh | sleeping => exact .of trivial rfl
    | pushed => exact .refl _
  · cases push with
    | fresh | pushed => trivial
    | sleeping due =>
        simp only [DelayedPush.act]
        split <;> trivial

end Calls

end Engine

end ResourceWatch
