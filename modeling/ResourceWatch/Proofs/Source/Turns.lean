import Mathlib.Logic.Function.Basic
import ResourceWatch.Proofs.Engine.Resting
import ResourceWatch.Source.World

/-!
# What can happen to the source

Changes enter the channel when they are sent, or when those who offer them find that there
is room. The source takes them out again. Whatever happens does one of a few things to the
source: it is left alone, begins to be there, is let go of before it begins, goes on, or ends.

A source that waits for a change can rely on being made ready: by the change, by the token,
or when the last of those goes who might have sent one.
-/

namespace ResourceWatch.SourceWorld

def Task.source? : Task → Option Source
  | .source state => some state
  | _ => none

/-- Where the source with a number stands, if there is one. -/
def sourceAt (w : SourceWorld) (t : TaskId) : Option Source := w.tasks[t]?.bind Task.source?

def conduct : Conduct SourceWorld Command where
  apply w c := (w.apply c).1
  allows _ _ := true

def takes (w : SourceWorld) : Happening Command → List ChangeEvent
  | .move t =>
    if w.sourceAt t = some .running ∧ w.fired = false then w.channel.buffer.take 1 else []
  | _ => []

/-- What enters the channel when something happens: a change is sent, or one that was offered
is found to have room. -/
def enters (w : SourceWorld) : Happening Command → List ChangeEvent
  | .move t =>
    match w.tasks[t]? with
    | some (.offer (.waiting e)) => if (w.channel.offer t e).2 = .sent then [e] else []
    | _ => []
  | .command (.send e) =>
    match (w.send e).2 with
    | .sent => [e]
    | _ => []
  | _ => []

/-- The keys of the objects of changes, of those whose kind is known. -/
def keys (events : List ChangeEvent) : List String :=
  events.filterMap fun e => e.reference.kind.map fun gvk =>
    ObjectKey.encode ⟨gvk, e.reference.ns, e.reference.name⟩

variable {w w' w₁ : SourceWorld} {past : Past SourceWorld Command} {h : Happening Command}
  {t u : TaskId} {s : Source} {task : Task}

@[simp] theorem keys_append (es es' : List ChangeEvent) :
    keys (es ++ es') = keys es ++ keys es' := List.filterMap_append

theorem keys_singleton (e : ChangeEvent) :
    keys [e] = ((ObjectKey.ofReference? e.reference).map ObjectKey.encode).toList := by
  cases kind : e.reference.kind <;> simp [keys, ObjectKey.ofReference?, kind]

theorem sourceAt_eq_some : w.sourceAt t = some s ↔ w.tasks[t]? = some (.source s) := by
  rw [sourceAt, Option.bind_eq_some_iff]
  constructor
  · rintro ⟨task, there, is⟩
    cases task <;> simp_all [Task.source?]
  · exact fun there => ⟨_, there, rfl⟩

theorem sourceAt_of_set (there : w.tasks[t]? = some task) {task' : Task}
    (tasks : w'.tasks = w.tasks.set t task') :
    w'.sourceAt = Function.update w.sourceAt t task'.source? := by
  funext u
  rw [sourceAt, tasks, List.getElem?_set]
  by_cases here : t = u
  · subst here
    simp [(List.getElem?_eq_some_iff.1 there).1]
  · rw [if_neg here, Function.update_of_ne (Ne.symm here)]
    rfl

theorem sourceAt_of_append (task : Task) (tasks : w'.tasks = w.tasks ++ [task]) :
    w'.sourceAt = Function.update w.sourceAt w.tasks.length task.source? := by
  funext u
  rw [sourceAt, tasks]
  obtain known | rfl | beyond := Nat.lt_trichotomy u w.tasks.length
  · rw [List.getElem?_append_left known, Function.update_of_ne (Nat.ne_of_lt known)]
    rfl
  · simp
  · rw [List.getElem?_eq_none (by simpa using Nat.succ_le_of_lt beyond),
      Function.update_of_ne (Nat.ne_of_gt beyond), sourceAt,
      List.getElem?_eq_none (Nat.le_of_lt beyond)]

/-- What becomes of a task that is no source, and stays none, is nothing to the source. -/
theorem sourceAt_of_bystander (there : w.tasks[t]? = some task) (other : task.source? = none)
    {task' : Task} (tasks : w'.tasks = w.tasks.set t task') (other' : task'.source? = none) :
    w'.sourceAt = w.sourceAt := by
  have was : w.sourceAt t = none := by rw [sourceAt, there, Option.bind_some, other]
  rw [sourceAt_of_set there tasks, other', ← was, Function.update_eq_self]

theorem sourceAt_length (w : SourceWorld) : w.sourceAt w.tasks.length = none := by
  simp [sourceAt]

theorem hasSenders_iff :
    w.hasSenders = true ↔ 0 < w.handles ∨
      ∃ (t : TaskId) (e : ChangeEvent), w.tasks[t]? = some (.offer (.waiting e)) := by
  rw [hasSenders, Bool.or_eq_true, decide_eq_true_eq, List.any_eq_true]
  refine or_congr Iff.rfl ⟨?_, ?_⟩
  · rintro ⟨task, there, sends⟩
    obtain ⟨t, known⟩ := List.mem_iff_getElem?.1 there
    unfold Task.isSender at sends
    split at sends
    · exact ⟨t, _, known⟩
    · simp at sends
  · rintro ⟨t, e, there⟩
    exact ⟨_, List.mem_of_getElem? there, rfl⟩

section Attention

/-- A source waits for a change, and there is nothing that it misses. -/
structure Quiet (w : SourceWorld) (t : TaskId) : Prop where
  listens : w.channel.listener = some t
  empty : w.channel.buffer = []
  senders : w.hasSenders = true
  unfired : w.fired = false

/-- A source can go on, or has nothing to go on for. -/
def Attended (w : SourceWorld) (t : TaskId) (s : Source) : Prop :=
  t ∈ w.schedule.ready ∨ (s = .running ∧ w.Quiet t)

@[simp] theorem noticeSilence_tasks (w : SourceWorld) : w.noticeSilence.tasks = w.tasks := by
  unfold noticeSilence
  split <;> rfl

@[simp] theorem noticeSilence_history (w : SourceWorld) :
    w.noticeSilence.history = w.history := by
  unfold noticeSilence
  split <;> rfl

@[simp] theorem noticeSilence_fired (w : SourceWorld) : w.noticeSilence.fired = w.fired := by
  unfold noticeSilence
  split <;> rfl

@[simp] theorem noticeSilence_idleSource (w : SourceWorld) :
    w.noticeSilence.idleSource = w.idleSource := by
  unfold noticeSilence
  split <;> rfl

@[simp] theorem noticeSilence_buffer (w : SourceWorld) :
    w.noticeSilence.channel.buffer = w.channel.buffer := by
  unfold noticeSilence
  split <;> rfl

@[simp] theorem noticeSilence_closed (w : SourceWorld) :
    w.noticeSilence.channel.closed = w.channel.closed := by
  unfold noticeSilence
  split <;> rfl

/-- A source that listens is made ready when a change comes. -/
theorem Attended.wakeListener (h : w.Attended t s) (keeps : w.schedule.Keeps w₁.schedule)
    (listener : w₁.channel.listener = w.channel.listener) : w₁.wakeListener.Attended t s := by
  obtain ready | ⟨-, quiet⟩ := h
  · exact .inl (Schedule.keeps_wakeAll _ _ t (keeps t ready))
  · refine .inl (Schedule.mem_wakeAll.2 (.inr ?_))
    simp [listener, quiet.listens]

/-- So it is when one has entered, which is recorded. -/
theorem Attended.entered (h : w.Attended t s) (keeps : w.schedule.Keeps w₁.schedule)
    (listener : w₁.channel.listener = w.channel.listener) (e : ChangeEvent) :
    (w₁.wakeListener.note (.entered e)).Attended t s := by
  obtain ready | ⟨-, quiet⟩ := h
  · exact .inl (Schedule.keeps_wakeAll _ _ t (keeps t ready))
  · refine .inl (Schedule.mem_wakeAll.2 (.inr ?_))
    simp [listener, quiet.listens]

/-- A source that listens is made ready when no change can come. -/
theorem Attended.noticeSilence (h : w.Attended t s) (keeps : w.schedule.Keeps w₁.schedule)
    (listener : w₁.channel.listener = w.channel.listener)
    (buffer : w₁.channel.buffer = w.channel.buffer) (fired : w₁.fired = w.fired) :
    w₁.noticeSilence.Attended t s := by
  unfold SourceWorld.noticeSilence
  split
  · rename_i senders
    exact h.imp (keeps t) (And.imp_right fun quiet =>
      ⟨listener.trans quiet.listens, buffer.trans quiet.empty, senders, fired.trans quiet.unfired⟩)
  · exact h.wakeListener keeps listener

theorem Attended.rest (h : w.Attended t s) (other : t ≠ u) :
    Attended { w with schedule := w.schedule.rest u } t s :=
  h.imp (fun ready => Schedule.mem_rest_of_ne ready other)
    (And.imp_right fun quiet => ⟨quiet.listens, quiet.empty, quiet.senders, quiet.unfired⟩)

/-- Nothing that the source must learn of happens. -/
theorem Attended.keep (h : w.Attended t s) (keeps : w.schedule.Keeps w₁.schedule)
    (listener : w₁.channel.listener = w.channel.listener)
    (buffer : w₁.channel.buffer = w.channel.buffer) (fired : w₁.fired = w.fired)
    (senders : w.hasSenders = true → w₁.hasSenders = true) : w₁.Attended t s :=
  h.imp (keeps t) (And.imp_right fun quiet => ⟨listener.trans quiet.listens,
    buffer.trans quiet.empty, senders quiet.senders, fired.trans quiet.unfired⟩)

theorem hasSenders_mono (handles : w.handles ≤ w'.handles)
    (offers : ∀ (u : TaskId) (e : ChangeEvent), w.tasks[u]? = some (.offer (.waiting e)) →
      w'.tasks[u]? = some (.offer (.waiting e))) (senders : w.hasSenders = true) :
    w'.hasSenders = true := by
  rw [hasSenders_iff] at senders ⊢
  exact senders.imp (Nat.lt_of_lt_of_le · handles) fun ⟨u, e, there⟩ => ⟨u, e, offers u e there⟩

/-- Somebody who is no sender becomes another, and nobody else stops sending. -/
theorem hasSenders_of_set (there : w.tasks[t]? = some task) (other : task.isSender = false)
    {task' : Task} (tasks : w'.tasks = w.tasks.set t task') (handles : w'.handles = w.handles)
    (senders : w.hasSenders = true) : w'.hasSenders = true := by
  refine hasSenders_mono (Nat.le_of_eq handles.symm) (fun u e sends => ?_) senders
  have distinct : t ≠ u := by
    rintro rfl
    obtain rfl := Option.some.inj (there.symm.trans sends)
    cases other
  rw [tasks, List.getElem?_set_ne distinct]
  exact sends

/-- One task more keeps nobody from sending. -/
theorem hasSenders_of_append (tasks : w'.tasks = w.tasks ++ [task])
    (handles : w'.handles = w.handles) (senders : w.hasSenders = true) :
    w'.hasSenders = true := by
  refine hasSenders_mono (Nat.le_of_eq handles.symm) (fun u e sends => ?_) senders
  rw [tasks]
  exact getElem?_append_singleton.2 (.inl sends)

theorem mem_pending : t ∈ w.pending ↔ ∃ task, w.tasks[t]? = some task ∧ task.heeds = true := by
  rw [pending, List.mem_filter, List.mem_range, Option.any_eq_true]
  exact ⟨And.right, fun ⟨task, there, heeds⟩ =>
    ⟨(List.getElem?_eq_some_iff.1 there).1, task, there, heeds⟩⟩

/-- The source heeds the token and the gate until it has ended. -/
theorem pending_of_source (there : w.sourceAt t = some s) (live : s ≠ .ended) :
    t ∈ w.pending :=
  mem_pending.2 ⟨_, sourceAt_eq_some.1 there, by simpa [Task.heeds] using live⟩

end Attention

/-- What something that happens does to the source and to the channel. -/
inductive Effect (w : SourceWorld) (h : Happening Command) (w' : SourceWorld) : Prop where
  /-- The source is left alone, and learns what it must. A change may enter. -/
  | aside (sources : w'.sourceAt = w.sourceAt) (idle : w'.idleSource = w.idleSource)
      (takes : takes w h = []) (keyed : w'.history.keyed = w.history.keyed)
      (buffer : w'.channel.buffer = w.channel.buffer ++ enters w h)
      (closed : w'.channel.closed = w.channel.closed)
      (attends : ∀ t s, w.sourceAt t = some s → s ≠ .ended → w.Attended t s → w'.Attended t s)
  /-- There is a source from now on. -/
  | starts (t : TaskId) (none : w.idleSource = true) (idle : w'.idleSource = false)
      (sources : w'.sourceAt = Function.update w.sourceAt t (some .fresh))
      (takes : takes w h = []) (enters : enters w h = [])
      (keyed : w'.history.keyed = w.history.keyed) (channel : w'.channel = w.channel)
      (attended : w'.Attended t .fresh)
  /-- The source is let go of before it begins. -/
  | discards (none : w.idleSource = true) (idle : w'.idleSource = false)
      (sources : w'.sourceAt = w.sourceAt) (takes : takes w h = []) (enters : enters w h = [])
      (keyed : w'.history.keyed = w.history.keyed) (buffer : w'.channel.buffer = [])
      (closed : w'.channel.closed = true)
  /-- The source goes on, with a change or without. -/
  | turns (t : TaskId) (s : Source) (there : w.sourceAt t = some s) (live : s ≠ .ended)
      (sources : w'.sourceAt = Function.update w.sourceAt t (some .running))
      (idle : w'.idleSource = w.idleSource) (enters : enters w h = [])
      (keyed : w'.history.keyed = w.history.keyed ++ keys (takes w h))
      (buffer : w.channel.buffer = takes w h ++ w'.channel.buffer)
      (closed : w'.channel.closed = w.channel.closed) (attended : w'.Attended t .running)
  /-- The source ends. -/
  | ends (t : TaskId) (moves : h = .move t) (there : w.sourceAt t = some .running)
      (sources : w'.sourceAt = Function.update w.sourceAt t (some .ended))
      (idle : w'.idleSource = w.idleSource) (takes : takes w h = []) (enters : enters w h = [])
      (keyed : w'.history.keyed = w.history.keyed) (buffer : w'.channel.buffer = [])
      (closed : w'.channel.closed = true)
      (reason : w.fired = true ∨ (w.channel.buffer = [] ∧ w.hasSenders = false))

/-- Nothing happens to the world. -/
theorem Effect.stays (takes : takes w h = []) (enters : enters w h = []) : Effect w h w :=
  .aside rfl rfl takes rfl (by simp [enters]) rfl fun _ _ _ _ => id

theorem keyed_note (w : SourceWorld) (o : Occurrence) :
    (w.note o).history.keyed = w.history.keyed ++ History.keyed [o] := List.filterMap_append

/-- Only handing a key over is recorded as that. -/
theorem keyed_note_of_nil {o : Occurrence} (other : History.keyed [o] = []) (w : SourceWorld) :
    (w.note o).history.keyed = w.history.keyed := by
  rw [keyed_note, other, List.append_nil]

theorem enters_of_closed (closed : w.channel.closed = true) (h : Happening Command) :
    enters w h = [] := by
  cases h with
  | elapse time => rfl
  | move t =>
      simp only [enters]
      split
      · simp [Channel.offer, closed]
      · rfl
  | command c =>
      cases c with
      | send e =>
          by_cases none : w.handles = 0
          · simp [enters, send, none]
          · simp [enters, send, none, closed]
      | _ => rfl

section Moves

theorem takes_of_not_running (other : w.sourceAt t ≠ some .running) :
    takes w (.move t) = [] := if_neg fun both => other both.1

theorem enters_of_source (there : w.sourceAt t = some s) : enters w (.move t) = [] := by
  simp [enters, sourceAt_eq_some.1 there]

theorem effect_of_rests {v : SourceWorld} (acts : w.act t = (v, .rests))
    (other : ∀ s, w.sourceAt t = some s → s = .ended) (sources : v.sourceAt = w.sourceAt)
    (idle : v.idleSource = w.idleSource) (keyed : v.history.keyed = w.history.keyed)
    (buffer : v.channel.buffer = w.channel.buffer ++ enters w (.move t))
    (closed : v.channel.closed = w.channel.closed)
    (attends : ∀ u s, w.Attended u s → v.Attended u s) :
    Effect w (.move t) (Cooperative.run w t) := by
  have still : takes w (.move t) = [] :=
    takes_of_not_running fun running => by simpa using other .running running
  rw [Cooperative.run_of_rests acts]
  refine .aside sources idle still keyed buffer closed fun u s there live attended => ?_
  have distinct : u ≠ t := by
    rintro rfl
    exact live (other s there)
  exact (attends u s attended).rest distinct

/-- Somebody who offers a change learns that it is in the channel, or that it was turned
away, or goes on waiting. -/
theorem effect_offer {e : ChangeEvent} (there : w.tasks[t]? = some (.offer (.waiting e))) :
    Effect w (.move t) (Cooperative.run w t) := by
  have other (s : Source) (is : w.sourceAt t = some s) : s = .ended := by
    simp [sourceAt, there, Task.source?] at is
  have becomes {v : SourceWorld} {state : Offer}
      (tasks : v.tasks = w.tasks.set t (.offer state)) : v.sourceAt = w.sourceAt :=
    sourceAt_of_bystander there rfl tasks rfl
  have enters_eq : enters w (.move t) = if (w.channel.offer t e).2 = .sent then [e] else [] := by
    simp only [enters, there]
  obtain ⟨-, offered⟩ | ⟨-, -, offered⟩ | ⟨-, -, offered⟩ | ⟨-, -, -, offered⟩ :=
    w.channel.offer_cases t e
  · have acts : w.act t = ({ w with
        channel := { w.channel with granted := w.channel.granted.erase t }
        tasks := w.tasks.set t (.offer .dropped) }.noticeSilence, .rests) := by
      simp only [act, there, offer, offered]
    refine effect_of_rests acts other (becomes (noticeSilence_tasks _))
      (noticeSilence_idleSource _) (by rw [noticeSilence_history]) ?_ (noticeSilence_closed _)
      fun u s attended => attended.noticeSilence (.refl _) rfl rfl rfl
    rw [noticeSilence_buffer, enters_eq, offered]
    exact (List.append_nil _).symm
  · have acts : w.act t = ({ w with
        channel := { w.channel with granted := w.channel.granted.erase t }.put e
        tasks := w.tasks.set t (.offer .sent) }.wakeListener.note (.entered e), .rests) := by
      simp only [act, there, offer, offered]
    refine effect_of_rests acts other (becomes rfl) rfl (keyed_note_of_nil rfl _) ?_ rfl
      fun u s attended => ?_
    · rw [enters_eq, offered]
      rfl
    · refine attended.entered ?_ ?_ e
      · exact .refl _
      · rfl
  · have acts : w.act t = (w, .rests) := by simp only [act, there, offer, offered]
    refine effect_of_rests acts other rfl rfl rfl ?_ rfl fun u s => id
    rw [enters_eq, offered]
    exact (List.append_nil _).symm
  · have acts : w.act t =
        ({ w with channel := { w.channel with waiting := w.channel.waiting ++ [t] } }, .rests) := by
      simp only [act, there, offer, offered]
    refine effect_of_rests acts other rfl rfl rfl ?_ rfl fun u s attended =>
      attended.keep (.refl _) rfl rfl rfl id
    rw [enters_eq, offered]
    exact (List.append_nil _).symm

theorem sourceAt_after (there : w.sourceAt t = some s) {v : SourceWorld} {state : Source}
    (tasks : v.tasks = w.tasks.set t (.source state)) :
    v.sourceAt = Function.update w.sourceAt t (some state) :=
  sourceAt_of_set (sourceAt_eq_some.1 there) tasks

theorem effect_begins (ready : t ∈ w.schedule.ready) (there : w.sourceAt t = some .fresh) :
    Effect w (.move t) (Cooperative.run w t) := by
  have still : takes w (.move t) = [] := takes_of_not_running (by simp [there])
  have acts : w.act t = ({ w with tasks := w.tasks.set t (.source .running) }.note
      (.logged .sourceStarting), .goesOn) := by
    simp only [act, sourceAt_eq_some.1 there]
    rfl
  rw [Cooperative.run_of_goesOn acts]
  refine .turns t .fresh there (by simp) (sourceAt_after there rfl) rfl (enters_of_source there)
    ?_ ?_ rfl (.inl ready)
  · rw [still, keyed_note]
    rfl
  · rw [still]
    rfl

/-- The source ends, and says why. -/
theorem effect_ends (there : w.sourceAt t = some .running) (e : LogEvent)
    (reason : w.fired = true ∨ (w.channel.buffer = [] ∧ w.hasSenders = false))
    (still : takes w (.move t) = [])
    (acts : w.act t = ({ w with
      channel := w.channel.drop.1
      tasks := w.tasks.set t (.source .ended) }.wakeAll w.channel.drop.2 |>.note (.logged e),
        .rests)) :
    Effect w (.move t) (Cooperative.run w t) := by
  rw [Cooperative.run_of_rests acts]
  exact .ends t rfl there (sourceAt_after there rfl) rfl still (enters_of_source there)
    (keyed_note_of_nil rfl _) rfl rfl reason

/-- The source waits for the next change. -/
theorem effect_waits (there : w.sourceAt t = some .running) (unfired : w.fired = false)
    (received : w.channel.receive? = none) (senders : w.hasSenders = true) :
    Effect w (.move t) (Cooperative.run w t) := by
  have known := sourceAt_eq_some.1 there
  have empty : w.channel.buffer = [] := Engine.receive?_eq_none.1 received
  have still : takes w (.move t) = [] := by
    rw [takes, if_pos ⟨there, unfired⟩, empty]
    rfl
  have acts : w.act t = ({ w with
      channel := { w.channel with listener := some t }
      tasks := w.tasks.set t (.source .running) }, .rests) := by
    simp only [act, known, Source.act, unfired, received, senders]
    rfl
  rw [Cooperative.run_of_rests acts]
  refine .turns t .running there (by simp) (sourceAt_after there rfl) rfl
    (enters_of_source there) ?_ ?_ rfl (.inr ?_)
  · rw [still]
    exact (List.append_nil _).symm
  · rw [still]
    rfl
  · exact ⟨rfl, ⟨rfl, empty, hasSenders_of_set known rfl rfl rfl senders, unfired⟩⟩

/-- The source takes a change and queues its key, if there is one. -/
theorem effect_takes (ready : t ∈ w.schedule.ready) (there : w.sourceAt t = some .running)
    (unfired : w.fired = false) {e : ChangeEvent} {c : Channel} {woken : Option TaskId}
    (received : w.channel.receive? = some (e, c, woken)) :
    Effect w (.move t) (Cooperative.run w t) := by
  have known := sourceAt_eq_some.1 there
  have nothing : enters w (.move t) = [] := enters_of_source there
  have buffer := Path.receive?_buffer received
  have takes_eq : takes w (.move t) = [e] := by
    rw [takes, if_pos ⟨there, unfired⟩, buffer]
    rfl
  have flow : w.channel.buffer = takes w (.move t) ++ c.buffer := by
    rw [takes_eq]
    exact buffer
  have closed := Path.receive?_closed received
  have goesOn : t ∈ (w.schedule.wakeAll woken.toList).ready :=
    Schedule.keeps_wakeAll _ _ t ready
  cases key : ObjectKey.ofReference? e.reference with
  | none =>
      have acts : w.act t = ({ w with
          channel := c, tasks := w.tasks.set t (.source .running) }.wakeAll woken.toList
            |>.note (.logged (.kindUnknown e.reference.joinedName e.owner)), .goesOn) := by
        simp only [act, known, Source.act, unfired, received, key]
        rfl
      rw [Cooperative.run_of_goesOn acts]
      refine .turns t .running there (by simp) (sourceAt_after there rfl) rfl nothing ?_ flow
        closed (.inl goesOn)
      rw [takes_eq, keyed_note, keys_singleton, key]
      rfl
  | some key' =>
      have acts : w.act t = ({ w with
          channel := c, tasks := w.tasks.set t (.source .running) }.wakeAll woken.toList
            |>.note (.logged (.queueing key' e.owner)) |>.note (.keyed key'.encode), .goesOn) := by
        simp only [act, known, Source.act, unfired, received, key]
        rfl
      rw [Cooperative.run_of_goesOn acts]
      refine .turns t .running there (by simp) (sourceAt_after there rfl) rfl nothing ?_ flow
        closed (.inl goesOn)
      rw [takes_eq, keyed_note, keyed_note_of_nil rfl, keys_singleton, key]
      rfl

/-- The source begins, takes a change, waits for one, or ends. -/
theorem effect_source (ready : t ∈ w.schedule.ready) (there : w.sourceAt t = some s)
    (live : s ≠ .ended) : Effect w (.move t) (Cooperative.run w t) := by
  have known := sourceAt_eq_some.1 there
  cases s with
  | ended => exact absurd rfl live
  | fresh => exact effect_begins ready there
  | running =>
      by_cases fired : w.fired = true
      · refine effect_ends there .sourceCancelled (.inl fired) (if_neg (by simp [fired])) ?_
        simp only [act, known, Source.act, if_pos fired]
        rfl
      have unfired : w.fired = false := by simpa using fired
      cases received : w.channel.receive? with
      | some got => exact effect_takes ready there unfired received
      | none =>
          cases senders : w.hasSenders with
          | true => exact effect_waits there unfired received senders
          | false =>
              have empty : w.channel.buffer = [] := Engine.receive?_eq_none.1 received
              refine effect_ends there .sourceClosed (.inr ⟨empty, senders⟩) ?_ ?_
              · rw [takes, if_pos ⟨there, unfired⟩, empty]
                rfl
              · simp only [act, known, Source.act, if_neg fired, received, senders]
                rfl

/-- Whatever goes on is the source, or leaves it alone. -/
theorem effect_move (ready : t ∈ w.schedule.ready) :
    Effect w (.move t) (Cooperative.run w t) := by
  have idles (acts : w.act t = (w, .rests)) (other : ∀ s, w.sourceAt t = some s → s = .ended)
      (nothing : enters w (.move t) = []) : Effect w (.move t) (Cooperative.run w t) :=
    effect_of_rests acts other rfl rfl rfl (by rw [nothing, List.append_nil]) rfl fun _ _ => id
  cases there : w.tasks[t]? with
  | none => exact idles (by simp [act, there]) (by simp [sourceAt, there]) (by simp [enters, there])
  | some task =>
      cases task with
      | source s =>
          by_cases live : s = .ended
          · subst live
            exact idles (by simp [act, there]) (by simp [sourceAt, there, Task.source?])
              (by simp [enters, there])
          · exact effect_source ready (sourceAt_eq_some.2 there) live
      | offer state =>
          cases state with
          | waiting e => exact effect_offer there
          | sent | dropped =>
              exact idles (by simp [act, there]) (by simp [sourceAt, there, Task.source?])
                (by simp [enters, there])
      | waiter answer =>
          have other (s : Source) (is : w.sourceAt t = some s) : s = .ended := by
            simp [sourceAt, there, Task.source?] at is
          have nothing : enters w (.move t) = [] := by simp [enters, there]
          cases answer with
          | some answer => exact idles (by simp [act, there]) other nothing
          | none =>
              have acts : w.act t = ({ w with
                  tasks := w.tasks.set t (.waiter (w.state.answer? w.fired)) }, .rests) := by
                simp only [act, there]
              refine effect_of_rests acts other (sourceAt_of_bystander there rfl rfl rfl) rfl rfl
                (by rw [nothing, List.append_nil]) rfl fun u s attended => ?_
              exact attended.keep (.refl _) rfl rfl rfl (hasSenders_of_set there rfl rfl rfl)

end Moves

section Commands

/-- A change that is sent enters the channel, or nothing happens. -/
theorem send_cases (w : SourceWorld) (e : ChangeEvent) :
    (w.send e = ({ w with channel := w.channel.put e }.wakeListener.note (.entered e), .sent)) ∨
      ((w.send e).1 = w ∧ enters w (.command (.send e)) = []) := by
  by_cases none : w.handles = 0
  · exact .inr (by simp [enters, send, none])
  · cases closed : w.channel.closed with
    | true => exact .inr (by simp [enters, send, none, closed])
    | false =>
        by_cases full : w.channel.room = 0
        · exact .inr (by simp [enters, send, none, closed, full])
        · exact .inl (by simp [send, none, closed, full])

theorem effect_spawn {c : Command} (task : Task) (applies : (w.apply c).1 = w.spawn task)
    (other : task.source? = none) (nothing : enters w (.command c) = []) :
    Effect w (.command c) (w.apply c).1 := by
  rw [applies]
  have sources : (w.spawn task).sourceAt = w.sourceAt := by
    rw [sourceAt_of_append (w := w) task rfl, other, ← sourceAt_length w, Function.update_eq_self]
  refine .aside sources rfl rfl rfl (by rw [nothing]; exact (List.append_nil _).symm) rfl
    fun u s _ _ attended => ?_
  exact attended.keep (Schedule.keeps_wakeAll _ _) rfl rfl rfl (hasSenders_of_append rfl rfl)

/-- Using the gate tells those who wait for it. -/
theorem effect_resolve {c : Command} {outcome : SyncState}
    (applies : (w.apply c).1 = w.resolve outcome) (nothing : enters w (.command c) = []) :
    Effect w (.command c) (w.apply c).1 := by
  rw [applies, resolve]
  split
  · refine .aside rfl rfl rfl rfl (by rw [nothing]; exact (List.append_nil _).symm) rfl
      fun u s _ _ attended => ?_
    exact attended.keep (Schedule.keeps_wakeAll _ _) rfl rfl rfl id
  · exact .stays rfl nothing

theorem effect_send (w : SourceWorld) (e : ChangeEvent) :
    Effect w (.command (.send e)) (w.apply (.send e)).1 := by
  obtain sent | ⟨same, nothing⟩ := send_cases w e
  · have comes : enters w (.command (.send e)) = [e] := by simp [enters, sent]
    have applies : (w.apply (.send e)).1 =
        { w with channel := w.channel.put e }.wakeListener.note (.entered e) :=
      congrArg Prod.fst sent
    rw [applies]
    refine .aside rfl rfl rfl (keyed_note_of_nil rfl _) (by rw [comes]; rfl) rfl
      fun u s _ _ attended => ?_
    refine attended.entered ?_ ?_ e
    · exact .refl _
    · rfl
  · have applies : (w.apply (.send e)).1 = w := same
    rw [applies]
    exact .stays rfl nothing

/-- An offer that is given up withdraws from the channel. -/
theorem effect_giveUp (w : SourceWorld) (t : TaskId) :
    Effect w (.command (.giveUp t)) (w.giveUp t) := by
  rw [SourceWorld.giveUp]
  split
  · rename_i e there
    have buffer := Path.withdraw_buffer w.channel t
    refine .aside (sourceAt_of_bystander there rfl (noticeSilence_tasks _) rfl)
      (noticeSilence_idleSource _) rfl (by rw [noticeSilence_history]; rfl) ?_ ?_
      fun u s _ _ attended => ?_
    · rw [noticeSilence_buffer]
      exact buffer.trans (List.append_nil _).symm
    · rw [noticeSilence_closed]
      exact Path.withdraw_closed w.channel t
    · exact attended.noticeSilence (Schedule.keeps_wakeAll _ _)
        (Engine.withdraw_listener w.channel t) buffer rfl
  · exact .stays rfl rfl

theorem effect_dropSender (w : SourceWorld) :
    Effect w (.command .dropSender) { w with handles := w.handles - 1 }.noticeSilence := by
  refine .aside ?_ (noticeSilence_idleSource _) rfl (by rw [noticeSilence_history]) ?_
    (noticeSilence_closed _) fun u s _ _ attended => ?_
  · funext u
    rw [sourceAt, noticeSilence_tasks]
    rfl
  · rw [noticeSilence_buffer]
    exact (List.append_nil _).symm
  · exact attended.noticeSilence (.refl _) rfl rfl rfl

/-- What is done from outside lets the source begin or lets go of it, or leaves it alone. -/
theorem effect_command (w : SourceWorld) (c : Command) :
    Effect w (.command c) (w.apply c).1 := by
  cases c with
  | send e => exact effect_send w e
  | giveUp t => exact effect_giveUp w t
  | dropSender => exact effect_dropSender w
  | markSynced | dropGate => exact effect_resolve rfl rfl
  | offer e =>
      by_cases none : w.handles = 0
      · simpa [apply, none] using Effect.stays (h := .command (.offer e)) rfl rfl
      · exact effect_spawn (.offer (.waiting e)) (by simp [apply, none]) rfl rfl
  | cloneSender =>
      by_cases none : w.handles = 0
      · simpa [apply, none] using Effect.stays (h := .command .cloneSender) rfl rfl
      · have applies : (w.apply .cloneSender).1 = { w with handles := w.handles + 1 } := by
          simp [apply, none]
        rw [applies]
        refine .aside rfl rfl rfl rfl (List.append_nil _).symm rfl fun u s _ _ attended => ?_
        exact attended.keep (.refl _) rfl rfl rfl
          (hasSenders_mono (Nat.le_succ _) fun _ _ there => there)
  | start =>
      cases idle : w.idleSource with
      | false => simpa [apply, idle] using Effect.stays (h := .command .start) rfl rfl
      | true =>
          have applies : (w.apply .start).1 =
              { w with idleSource := false }.spawn (.source .fresh) := by simp [apply, idle]
          rw [applies]
          refine .starts w.tasks.length idle rfl (sourceAt_of_append (.source .fresh) rfl) rfl rfl
            rfl rfl (.inl ?_)
          exact Schedule.mem_wakeAll.2 (.inr (List.mem_singleton.2 rfl))
  | dropSource =>
      cases idle : w.idleSource with
      | false => simpa [apply, idle] using Effect.stays (h := .command .dropSource) rfl rfl
      | true =>
          have applies : (w.apply .dropSource).1 =
              { w with idleSource := false, channel := w.channel.drop.1 }.wakeAll
                w.channel.drop.2 := by simp [apply, idle]
          rw [applies]
          exact .discards idle rfl rfl rfl rfl rfl rfl rfl
  | cancel =>
      refine .aside rfl rfl rfl rfl (List.append_nil _).symm rfl fun u s there live _ => ?_
      exact .inl (Schedule.mem_wakeAll.2 (.inr (pending_of_source there live)))
  | wait =>
      cases idle : w.idleSource with
      | false => exact effect_spawn (.waiter none) (by simp [apply, idle]) rfl rfl
      | true => simpa [apply, idle] using Effect.stays (h := .command .wait) rfl rfl

/-- What happens is one of the things that can happen to the source. -/
theorem effect_after (possible : conduct.Possible past w h) : Effect w h (conduct.after w h) := by
  cases h with
  | move t => exact effect_move possible
  | command c => exact effect_command w c
  | elapse time =>
      refine .aside rfl rfl rfl rfl (List.append_nil _).symm rfl fun u s _ _ attended => ?_
      exact attended.keep (Schedule.keeps_elapse _ time) rfl rfl rfl id

end Commands

end ResourceWatch.SourceWorld
