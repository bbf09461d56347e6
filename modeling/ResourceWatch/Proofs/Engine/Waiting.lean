import ResourceWatch.Proofs.Engine.Delivery

/-!
# Whoever waits is served

A pump waits only until its stream delivers something or there is room for its
change. Room that becomes free is given to the sender that waits longest, and
whoever is given room is made ready. So when nothing can move and the channel has
room, every pump that has not ended has passed on all that its stream has
delivered.
-/

namespace ResourceWatch

namespace Path

variable {p p' : Path} {t u : TaskId} {key : String} {alone : Prop} {gvk g : Gvk}

/-- A kind has one pump at most, and only if its stream was opened. -/
structure Single (p : Path) : Prop where
  taken : ∀ t q, p.role t = .pump q → (p.feed q.gvk).taken = true
  single : ∀ t u q q', p.role t = .pump q → p.role u = .pump q' → q.gvk = q'.gvk → t = u

theorem Single.pump (h : p.Single) {q q' : Pump} (pump : p.role t = .pump q)
    (other : p.role u = .pump q') (kind : q'.gvk = q.gvk) : u = t ∧ q' = q := by
  obtain rfl := h.single u t q' q other pump kind
  exact ⟨rfl, Role.pump.inj (other.symm.trans pump)⟩

theorem Step.taken (step : Step alone p p') (taken : (p.feed g).taken = true) :
    (p'.feed g).taken = true := by
  cases step with
  | stream t gvk store schedule new unfired spare untaken =>
      by_cases here : g = gvk
      · simp [here]
      · exact (congrArg Feed.taken (feedAt_feed_of_ne here)).trans taken
  | report | pass | pick =>
      refine Eq.trans (feedAt_congr Feed.taken ?_ g) taken
      rfl
  | _ => exact taken

/-- A pump was one before, or its stream has just been opened. -/
theorem Step.pump {q' : Pump} (step : Step alone p p') (pump : p'.role t = .pump q') :
    (∃ q, p.role t = .pump q ∧ q'.gvk = q.gvk) ∨
      ((p.feed q'.gvk).taken = false ∧ (p'.feed q'.gvk).taken = true ∧
        ∀ u ≠ t, p'.role u = p.role u) := by
  have aside {u : TaskId} {r : Role} (pump : (p.become u r).role t = .pump q')
      (other : ∀ q, r ≠ .pump q) : p.role t = .pump q' :=
    (become_role_eq_iff.1 pump).elim (fun h => absurd h.2 (other q')) (·.2)
  have marked {ts : List TaskId} (pump : (p.abandon ts).role t = .pump q') :
      ∃ q, p.role t = .pump q ∧ q'.gvk = q.gvk := by
    obtain was | ⟨q, was, -, rfl⟩ := role_of_abandon pump
    · exact ⟨q', was, rfl⟩
    · exact ⟨q, was, rfl⟩
  have turned {u : TaskId} {q q₁ : Pump} (pump : (p.become u (.pump q₁)).role t = .pump q')
      (was : p.role u = .pump q) (kind : q₁.gvk = q.gvk) :
      ∃ q, p.role t = .pump q ∧ q'.gvk = q.gvk := by
    obtain ⟨rfl, same⟩ | ⟨-, was'⟩ := become_role_eq_iff.1 pump
    · cases same
      exact ⟨q, was, kind⟩
    · exact ⟨q', was', rfl⟩
  cases step with
  | begin | await | «open» | fail | retire | record | conclude =>
      exact .inl ⟨q', aside pump (by simp), rfl⟩
  | delegate t' u starter new =>
      obtain ⟨-, same⟩ | ⟨-, was⟩ := become_role_eq_iff.1 pump
      · simp at same
      · exact .inl ⟨q', aside was (by simp), rfl⟩
  | founder t' opened spare pumps =>
      obtain ⟨-, same⟩ | ⟨-, was⟩ := become_role_eq_iff.1 pump
      · simp at same
      · exact .inl (marked was)
  | forsake pumps => exact .inl (marked pump)
  | stream t' gvk store schedule new unfired spare untaken =>
      obtain ⟨rfl, same⟩ | ⟨-, was⟩ := become_role_eq_iff.1 pump
      · cases same
        exact .inr ⟨untaken, by simp, fun u other => become_role_of_ne other⟩
      · exact .inl ⟨q', was, rfl⟩
  | pass u q item rest was => exact .inl (turned pump was rfl)
  | pick u q item rest e was => exact .inl (turned pump was rfl)
  | send u q e was => exact .inl (turned pump was rfl)
  | finish u q schedule was => exact .inl (turned pump was rfl)
  | _ => exact .inl ⟨q', pump, rfl⟩

theorem Single.step (h : p.Single) (step : Step alone p p') : p'.Single := by
  refine ⟨?_, ?_⟩
  · intro t q pump
    obtain ⟨q₀, was, kind⟩ | ⟨-, taken, -⟩ := step.pump pump
    · rw [kind]
      exact step.taken (h.taken t q₀ was)
    · exact taken
  · intro t u q q' pump pump' kind
    obtain ⟨q₀, was, same⟩ | ⟨untaken, -, others⟩ := step.pump pump
    · obtain ⟨q₁, was', same'⟩ | ⟨untaken, -, -⟩ := step.pump pump'
      · exact h.single t u q₀ q₁ was was' (by rw [← same, ← same', kind])
      · rw [← kind, same, h.taken t q₀ was] at untaken
        simp at untaken
    · by_contra other
      rw [others u (Ne.symm other)] at pump'
      rw [kind, h.taken u q' pump'] at untaken
      simp at untaken

theorem Single.take (h : p.Single) (take : Take t key p p') : p'.Single := by
  obtain ⟨queue, time, result, asking, -, -⟩ := take
  have was {v : TaskId} {q : Pump}
      (pump : (p.become t (.holder key result)).role v = .pump q) : p.role v = .pump q :=
    (become_role_eq_iff.1 pump).elim (fun h => by simp at h) (·.2)
  exact ⟨fun v q pump => h.taken v q (was pump),
    fun v w q q' pump pump' => h.single v w q q' (was pump) (was pump')⟩

theorem Single.inflow {f : Feed} (h : p.Single) (inflow : Inflow gvk f p p')
    (taken : f.taken = (p.feed gvk).taken) : p'.Single := by
  obtain ⟨schedule, keeps, woken⟩ := inflow
  refine ⟨?_, h.single⟩
  intro t q pump
  exact (feedAt_congr Feed.taken taken q.gvk).trans (h.taken t q pump)

/-- A pump that is not ready may rest, and the channel keeps track of who waits.
Somebody waits only when the channel is full, up to some places that are about to
be given away. -/
structure Awake (places : Nat) (p : Path) : Prop where
  rests : ∀ t, t ∉ p.schedule.ready → p.MayRest t
  granted : ∀ t ∈ p.channel.granted, t ∈ p.schedule.ready
  nodup : (p.channel.waiting ++ p.channel.granted).Nodup
  senders : ∀ t ∈ p.channel.waiting ++ p.channel.granted,
    ∃ q e, p.role t = .pump q ∧ q.state = .sending e
  full : p.channel.waiting ≠ [] →
    p.channel.capacity ≤ p.channel.buffer.length + p.channel.granted.length + places
  closed : p.channel.closed = true → p.channel.waiting = []

variable {places : Nat}

/-- What a pump waits for does not go away as long as its stream and its place in
the channel are what they were. -/
theorem MayRest.keep (h : p.MayRest t)
    (role : ∀ q', p'.role t = .pump q' → p.role t = .pump q')
    (feed : ∀ q, p.role t = .pump q → q.state = .listening →
      (p'.feed q.gvk).arrivals = (p.feed q.gvk).arrivals ∧
        (p'.feed q.gvk).live = (p.feed q.gvk).live)
    (waiting : t ∈ p.channel.waiting → t ∈ p'.channel.waiting)
    (fired : p'.fired = p.fired) : p'.MayRest t := by
  intro q pump
  have was := role q pump
  obtain ended | ⟨unfired, kept, ⟨state, arrivals, live⟩ | ⟨e, state, there⟩⟩ := h q was
  · exact .inl ended
  · obtain ⟨same, same'⟩ := feed q was state
    exact .inr ⟨fired.trans unfired, kept, .inl ⟨state, same.trans arrivals, same'.trans live⟩⟩
  · exact .inr ⟨fired.trans unfired, kept, .inr ⟨e, state, waiting there⟩⟩

/-- Who was given room cannot rest. -/
theorem Awake.not_mayRest (h : p.Awake places) (granted : t ∈ p.channel.granted) :
    ¬ p.MayRest t := by
  intro may
  obtain ⟨q, e, pump, state⟩ := h.senders t (List.mem_append_right _ granted)
  obtain ended | ⟨-, -, ⟨listening, -⟩ | ⟨_, -, there⟩⟩ := may q pump
  · simp [state] at ended
  · simp [state] at listening
  · exact List.disjoint_of_nodup_append h.nodup there granted

/-- The channel is as it was, and those who wait or were given room still have a
change. -/
theorem Awake.same (h : p.Awake places)
    (rests : ∀ t, t ∉ p'.schedule.ready → p'.MayRest t)
    (granted : ∀ t ∈ p.channel.granted, t ∈ p'.schedule.ready)
    (senders : ∀ t q e, p.role t = .pump q → q.state = .sending e →
      ∃ q', p'.role t = .pump q' ∧ q'.state = .sending e)
    (channel : ∃ listener, p'.channel = { p.channel with listener }) : p'.Awake places := by
  obtain ⟨listener, channel⟩ := channel
  refine ⟨rests, ?_, ?_, ?_, ?_, ?_⟩
  all_goals rw [channel]
  · exact granted
  · exact h.nodup
  · intro t ht
    obtain ⟨q, e, pump, state⟩ := h.senders t ht
    obtain ⟨q', pump', state'⟩ := senders t q e pump state
    exact ⟨q', e, pump', state'⟩
  · exact h.full
  · exact h.closed

/-- Only the streams, the tasks, the channel and the token matter. -/
theorem Awake.of_eq (h : p.Awake places) (feed : p'.feed = p.feed)
    (channel : p'.channel = p.channel) (fired : p'.fired = p.fired)
    (schedule : p'.schedule = p.schedule) (role : p'.role = p.role) : p'.Awake places := by
  obtain ⟨rests, granted, nodup, senders, full, closed⟩ := h
  refine ⟨?_, ?_, ?_, ?_, ?_, ?_⟩
  all_goals simp only [MayRest, feed, channel, fired, schedule, role]
  · exact rests
  · exact granted
  · exact nodup
  · exact senders
  · exact full
  · exact closed

/-- Tasks are made ready. -/
theorem Awake.wake (h : p.Awake places) {schedule : Schedule}
    (keeps : p.schedule.Keeps schedule) : (p.reschedule schedule).Awake places :=
  h.same
    (fun t rested => (h.rests t fun ready => rested (keeps t ready)).keep (fun _ pump => pump)
      (fun _ _ _ => ⟨rfl, rfl⟩) id rfl)
    (fun t ht => keeps t (h.granted t ht)) (fun _ q _ pump state => ⟨q, pump, state⟩) ⟨_, rfl⟩

/-- A task that was no pump becomes something else that is none. -/
theorem Awake.become (h : p.Awake places) {r : Role} (aside : ∀ q, p.role t ≠ .pump q)
    (other : ∀ q, r ≠ .pump q) : (p.become t r).Awake places := by
  refine h.same ?_ h.granted (fun u q e pump state => ⟨q, ?_, state⟩) ⟨_, rfl⟩
  · intro u hu
    refine (h.rests u hu).keep ?_ (fun _ _ _ => ⟨rfl, rfl⟩) id rfl
    intro q pump
    exact (become_role_eq_iff.1 pump).elim (fun h => absurd h.2 (other q)) (·.2)
  · have ne : u ≠ t := by
      rintro rfl
      exact aside q pump
    exact (become_role_of_ne ne).trans pump

theorem Awake.abandon (h : p.Awake places) {pumps : List TaskId} {schedule : Schedule}
    (keeps : p.schedule.Keeps schedule)
    (woken : ∀ t ∈ pumps, ∀ q, p.role t = .pump q → q.state ≠ .ended → t ∈ schedule.ready) :
    ((p.abandon pumps).reschedule schedule).Awake places := by
  refine h.same ?_ (fun t ht => keeps t (h.granted t ht)) ?_ ⟨_, rfl⟩
  · intro t rested
    refine (h.rests t fun ready => rested (keeps t ready)).keep ?_
      (fun _ _ _ => ⟨rfl, rfl⟩) id rfl
    intro q pump
    simp only [reschedule_role, abandon_role] at pump
    split at pump
    · rename_i member
      have marked : (p.abandon pumps).role t = .pump q := by simpa [member] using pump
      obtain was | ⟨q', was, live, rfl⟩ := role_of_abandon marked
      · exact was
      · exact absurd (woken t member q' was live) rested
    · exact pump
  · intro t q e pump state
    simp only [reschedule_role, abandon_role, pump]
    split
    · exact ⟨{ q with aborted := true }, by simp [Role.abandon, state], state⟩
    · exact ⟨q, rfl, state⟩

end Path

namespace Channel

@[simp] theorem grant_capacity (c : Channel) : c.grant.1.capacity = c.capacity := by
  rw [grant]
  split <;> rfl

/-- Room is given to the sender that waits longest. -/
theorem grant_waiting (c : Channel) : c.waiting = c.grant.2.toList ++ c.grant.1.waiting := by
  rw [grant]
  split
  · simp [*]
  · simp [*]

theorem grant_granted (c : Channel) : c.grant.1.granted = c.granted ++ c.grant.2.toList := by
  rw [grant]
  split <;> simp

/-- As long as somebody waits, somebody is given room. -/
theorem length_grant (c : Channel) (waits : c.grant.1.waiting ≠ []) :
    c.grant.2.toList.length = 1 := by
  rw [grant] at waits ⊢
  split
  · simp_all
  · rfl

end Channel

namespace Path

variable {p p' : Path} {t u : TaskId} {key : String} {alone : Prop} {gvk g : Gvk} {places : Nat}

/-- Room that has become free is given away. -/
theorem Awake.grant (h : p.Awake 1) {schedule : Schedule} (keeps : p.schedule.Keeps schedule)
    (served : ∀ u ∈ p.channel.grant.2, u ∈ schedule.ready) :
    ((p.withChannel p.channel.grant.1).reschedule schedule).Awake 0 := by
  have waiting := p.channel.grant_waiting
  have granted := p.channel.grant_granted
  have members : (p.channel.grant.1.waiting ++ p.channel.grant.1.granted).Perm
      (p.channel.waiting ++ p.channel.granted) := by
    rw [granted, waiting, List.append_assoc]
    refine (List.perm_append_comm.append_left _).trans ?_
    rw [← List.append_assoc, ← List.append_assoc]
    exact List.perm_append_comm.append_right _
  refine ⟨?_, ?_, members.nodup_iff.2 h.nodup,
    fun t ht => h.senders t (members.subset ht), ?_, ?_⟩
  · intro t rested
    refine (h.rests t fun ready => rested (keeps t ready)).keep (fun q pump => pump)
      (fun _ _ _ => ⟨rfl, rfl⟩) ?_ rfl
    intro there
    rw [waiting, List.mem_append, Option.mem_toList] at there
    exact there.resolve_left fun woken => rested (served t woken)
  · intro t ht
    simp only [reschedule_channel, withChannel_channel, granted, List.mem_append,
      Option.mem_toList] at ht
    exact ht.elim (fun old => keeps t (h.granted t old)) (served t)
  · intro waits
    have some_waits : p.channel.waiting ≠ [] := by
      rw [waiting]
      exact List.append_ne_nil_of_right_ne_nil _ waits
    have full := h.full some_waits
    have one := p.channel.length_grant waits
    simp only [reschedule_channel, withChannel_channel, grant_buffer, Channel.grant_capacity,
      granted, List.length_append, one]
    omega
  · intro closed
    have none := h.closed (by simpa using closed)
    rw [waiting] at none
    exact (List.append_eq_nil_iff.1 none).2

/-- A sender gives up its place, if it has one; the place is to be given away if
it was given room. -/
theorem Awake.leave (h : p.Awake 0) (q : Pump)
    (may : t ∉ p.schedule.ready → q.state = .ended) (freed : t ∈ p.channel.granted → places = 1) :
    ((p.withChannel { p.channel with
      waiting := p.channel.waiting.erase t
      granted := p.channel.granted.erase t }).become t (.pump q)).Awake places := by
  have waiting : (p.channel.waiting.erase t).Sublist p.channel.waiting := List.erase_sublist
  have granted : (p.channel.granted.erase t).Sublist p.channel.granted := List.erase_sublist
  have nodup := List.nodup_append.1 h.nodup
  refine ⟨?_, fun u hu => h.granted u (granted.subset hu),
    h.nodup.sublist (waiting.append granted), ?_, ?_, ?_⟩
  · intro u rested
    by_cases same : u = t
    · subst same
      intro q' pump
      obtain rfl : q = q' := by simpa using pump
      exact .inl (may rested)
    · refine (h.rests u rested).keep ?_ (fun _ _ _ => ⟨rfl, rfl⟩)
        (List.mem_erase_of_ne same).2 rfl
      intro q' pump
      exact (become_role_of_ne same).symm.trans pump
  · intro u hu
    have ne : u ≠ t := by
      rintro rfl
      exact (List.mem_append.1 hu).elim nodup.1.not_mem_erase nodup.2.1.not_mem_erase
    obtain ⟨q', e, pump, state⟩ := h.senders u ((waiting.append granted).subset hu)
    exact ⟨q', e, (become_role_of_ne ne).trans pump, state⟩
  · intro waits
    have some_waits : p.channel.waiting ≠ [] := by
      intro none
      simp [none] at waits
    have full := h.full some_waits
    simp only [become_channel, withChannel_channel]
    by_cases given : t ∈ p.channel.granted
    · have short := List.length_erase_add_one given
      have place := freed given
      omega
    · rw [List.erase_of_not_mem given]
      omega
  · intro closed
    simp [h.closed closed]

/-- A change enters at a place that was to be given away. -/
theorem Awake.put (h : p.Awake 1) (e : ChangeEvent) :
    (p.withChannel (p.channel.put e)).Awake 0 := by
  refine ⟨?_, h.granted, h.nodup, h.senders, ?_, h.closed⟩
  · intro t rested
    exact (h.rests t rested).keep (fun q pump => pump) (fun _ _ _ => ⟨rfl, rfl⟩) id rfl
  · intro waits
    have full := h.full waits
    simp only [withChannel_channel, Channel.put, List.length_append,
      List.length_singleton] at full ⊢
    omega

/-- The first change has left, so that there is a place to be given away. -/
theorem Awake.pop (h : p.Awake 0) {e : ChangeEvent} {rest : List ChangeEvent}
    (buffer : p.channel.buffer = e :: rest) :
    (p.withChannel { p.channel with buffer := rest }).Awake 1 := by
  refine ⟨?_, h.granted, h.nodup, h.senders, ?_, h.closed⟩
  · intro t rested
    exact (h.rests t rested).keep (fun q pump => pump) (fun _ _ _ => ⟨rfl, rfl⟩) id rfl
  · intro waits
    have full := h.full waits
    rw [buffer, List.length_cons] at full
    simp only [withChannel_channel]
    omega

/-- The first change leaves, and its place is given away. -/
theorem Awake.receive (h : p.Awake 0) {e : ChangeEvent} {c : Channel} {woken : Option TaskId}
    {schedule : Schedule} (received : p.channel.receive? = some (e, c, woken))
    (keeps : p.schedule.Keeps schedule) (served : ∀ u ∈ woken, u ∈ schedule.ready) :
    ((p.withChannel c).reschedule schedule).Awake 0 := by
  obtain ⟨rest, buffer, granted⟩ := receive?_eq_some.1 received
  have popped := (h.pop buffer).grant keeps
    (by simpa only [withChannel_channel, granted] using served)
  simp only [withChannel_channel, granted] at popped
  exact popped

/-- A pump ends, and its place is given away. -/
theorem Awake.finish (h : p.Awake 0) {q : Pump} {schedule : Schedule}
    (keeps : p.schedule.Keeps schedule)
    (woken : ∀ u ∈ (p.channel.withdraw t).2, u ∈ schedule.ready) :
    (((p.withChannel (p.channel.withdraw t).1).become t
      (.pump { q with state := .ended })).reschedule schedule).Awake 0 := by
  by_cases given : t ∈ p.channel.granted
  · have out : t ∉ p.channel.waiting := fun there =>
      List.disjoint_of_nodup_append h.nodup there given
    have left := h.leave (t := t) { q with state := .ended } (fun _ => rfl) fun _ => rfl
    have same : p.channel.withdraw t =
        ({ p.channel with granted := p.channel.granted.erase t } : Channel).grant := by
      simp [Channel.withdraw, given]
    rw [List.erase_of_not_mem out] at left
    rw [same] at woken ⊢
    exact left.grant keeps woken
  · have left : Awake 0 _ := h.leave { q with state := .ended } (fun _ => rfl)
      fun there => absurd there given
    have same : (p.channel.withdraw t).1 =
        { p.channel with waiting := p.channel.waiting.erase t } := by
      simp [Channel.withdraw, given]
    rw [List.erase_of_not_mem given] at left
    rw [same]
    exact left.wake keeps

theorem Awake.send (h : p.Awake 0) {q : Pump} {e : ChangeEvent} (ready : t ∈ p.schedule.ready)
    (out : t ∉ p.channel.waiting) :
    ((p.withChannel ({ p.channel with granted := p.channel.granted.erase t }.put e)).become t
      (.pump q)).Awake 0 := by
  have left := h.leave q (fun rested => absurd ready rested) fun _ => rfl
  rw [List.erase_of_not_mem out] at left
  exact left.put e

/-- A pump takes something from its stream, and is ready to go on. -/
theorem Awake.taken (h : p.Awake 0) (single : p.Single) {q r : Pump} {f : Feed}
    (pump : p.role t = .pump q) (ready : t ∈ p.schedule.ready) (state : q.state = .listening) :
    ((p.feedAt q.gvk f).become t (.pump r)).Awake 0 := by
  refine h.same ?_ h.granted ?_ ⟨_, rfl⟩
  · intro u rested
    have ne : u ≠ t := fun same => rested (same ▸ ready)
    refine (h.rests u rested).keep ?_ ?_ id rfl
    · intro q₁ pump'
      exact (become_role_of_ne ne).symm.trans pump'
    · intro q₁ pump' _
      have other : q₁.gvk ≠ q.gvk := fun kind => ne (single.pump pump pump' kind).1
      simp only [become_feed, feedAt_feed_of_ne other, and_self]
  · intro u q₁ e pump' state'
    have ne : u ≠ t := by
      rintro rfl
      obtain rfl := Role.pump.inj (pump.symm.trans pump')
      simp [state] at state'
    exact ⟨q₁, (become_role_of_ne ne).trans pump', state'⟩

theorem Awake.rest (h : p.Awake 0) (may : p.MayRest t) :
    (p.reschedule (p.schedule.rest t)).Awake 0 := by
  refine h.same ?_ ?_ (fun u q e pump state => ⟨q, pump, state⟩) ⟨_, rfl⟩
  · intro u rested
    by_cases same : u = t
    · exact same ▸ may
    · exact h.rests u fun ready => rested (Schedule.mem_rest_of_ne ready same)
  · intro u hu
    have ne : u ≠ t := fun same => h.not_mayRest (same ▸ hu) may
    exact Schedule.mem_rest_of_ne (h.granted u hu) ne

theorem Awake.fire (h : p.Awake 0) {schedule : Schedule} (keeps : p.schedule.Keeps schedule)
    (woken : ∀ t q, p.role t = .pump q → q.state ≠ .ended → t ∈ schedule.ready) :
    ({ p with fired := true }.reschedule schedule).Awake 0 := by
  refine h.same ?_ (fun u hu => keeps u (h.granted u hu))
    (fun _ q _ pump state => ⟨q, pump, state⟩) ⟨_, rfl⟩
  intro u rested q pump
  by_contra live
  exact rested (woken u q pump fun ended => live (.inl ended))

/-- A stream is opened, and its pump is ready. -/
theorem Awake.stream (h : p.Awake 0) {gvk : Gvk} {store : Gvk → Option Store}
    {schedule : Schedule} (new : p.role t = .bystander) (keeps : p.schedule.Keeps schedule)
    (ready : t ∈ schedule.ready) :
    ((((p.withStore store).feedAt gvk { p.feed gvk with taken := true }).become t
      (.pump { gvk })).reschedule schedule).Awake 0 := by
  have woken := h.wake keeps
  refine woken.same ?_ woken.granted ?_ ⟨_, rfl⟩
  · intro u rested
    have ne : u ≠ t := fun same => rested (same ▸ ready)
    refine (woken.rests u rested).keep (fun q pump => (become_role_of_ne ne).symm.trans pump)
      ?_ id rfl
    intro q _ _
    refine ⟨feedAt_congr Feed.arrivals ?_ q.gvk, feedAt_congr Feed.live ?_ q.gvk⟩ <;> rfl
  · intro u q e pump state
    have ne : u ≠ t := by
      rintro rfl
      exact absurd (new.symm.trans pump) (by simp)
    exact ⟨q, (become_role_of_ne ne).trans pump, state⟩

/-- A pump takes its place at the end of those who wait for room. -/
theorem Awake.queueUp (h : p.Awake 0) {q : Pump} {e : ChangeEvent} (pump : p.role t = .pump q)
    (state : q.state = .sending e) (unclosed : p.channel.closed = false)
    (full : p.channel.room = 0) (out : t ∉ p.channel.granted ∧ t ∉ p.channel.waiting) :
    (p.withChannel { p.channel with waiting := p.channel.waiting ++ [t] }).Awake 0 := by
  refine ⟨?_, h.granted, ?_, ?_, ?_, ?_⟩
  · intro u rested
    exact (h.rests u rested).keep (fun _ pump => pump) (fun _ _ _ => ⟨rfl, rfl⟩)
      (List.mem_append_left _) rfl
  · have perm : (p.channel.waiting ++ [t] ++ p.channel.granted).Perm
        (t :: (p.channel.waiting ++ p.channel.granted)) := by
      rw [List.append_assoc]
      exact List.perm_middle
    refine perm.nodup_iff.2 (List.nodup_cons.2 ⟨?_, h.nodup⟩)
    simp [out.1, out.2]
  · intro u hu
    simp only [withChannel_channel, List.mem_append, List.mem_singleton] at hu
    obtain (old | rfl) | old := hu
    · exact h.senders u (List.mem_append_left _ old)
    · exact ⟨q, e, pump, state⟩
    · exact h.senders u (List.mem_append_right _ old)
  · intro _
    simp only [Channel.room] at full
    simp only [withChannel_channel]
    omega
  · intro closed
    simp [unclosed] at closed

/-- Room at a closed channel is given up. -/
theorem Awake.refuse (h : p.Awake 0) (closed : p.channel.closed = true) :
    (p.withChannel { p.channel with granted := p.channel.granted.erase t }).Awake 0 := by
  have none := h.closed closed
  have granted : (p.channel.granted.erase t).Sublist p.channel.granted := List.erase_sublist
  refine ⟨?_, fun u hu => h.granted u (granted.subset hu),
    h.nodup.sublist (granted.append_left _), ?_, fun waits => absurd none waits, h.closed⟩
  · intro u rested
    exact (h.rests u rested).keep (fun _ pump => pump) (fun _ _ _ => ⟨rfl, rfl⟩) id rfl
  · intro u hu
    exact h.senders u ((granted.append_left _).subset hu)

/-- The channel is closed over whoever waits. -/
theorem Awake.stop (h : p.Awake 0) {schedule : Schedule} (keeps : p.schedule.Keeps schedule)
    (served : ∀ u ∈ p.channel.waiting, u ∈ schedule.ready) :
    ((p.withChannel p.channel.drop.1).reschedule schedule).Awake 0 := by
  have granted := List.sublist_append_right p.channel.waiting p.channel.granted
  refine ⟨?_, fun u hu => keeps u (h.granted u hu), h.nodup.sublist granted,
    fun u hu => h.senders u (granted.subset hu), fun waits => absurd rfl waits, fun _ => rfl⟩
  intro u rested
  exact (h.rests u fun ready => rested (keeps u ready)).keep (fun _ pump => pump)
    (fun _ _ _ => ⟨rfl, rfl⟩) (fun there => absurd (served u there) rested) rfl

/-- A step keeps whoever waits served. -/
theorem Awake.step (h : p.Awake 0) (single : p.Single) (step : Step alone p p') :
    p'.Awake 0 := by
  have aside (r' : Role) {t : TaskId} {r : Role} (was : p.role t = r) (old : ∀ q, r ≠ .pump q)
      (new : ∀ q, r' ≠ .pump q) : (p.become t r').Awake 0 := h.become (was ▸ old) new
  cases step with
  | wake schedule keeps => exact h.wake keeps
  | rest t may => exact h.rest may
  | listen listener =>
      exact h.same (fun u rested => (h.rests u rested).keep (fun _ pump => pump)
        (fun _ _ _ => ⟨rfl, rfl⟩) id rfl) h.granted (fun _ q _ pump state => ⟨q, pump, state⟩)
        ⟨listener, rfl⟩
  | fire schedule keeps woken => exact h.fire keeps woken
  | begin t unstarted new =>
      exact (aside (.starter false) new (by simp) (by simp)).of_eq rfl rfl rfl rfl rfl
  | delegate t u starter new =>
      have first := aside (.starter false) new (by simp) (by simp)
      have ne : t ≠ u := by
        rintro rfl
        simp [new] at starter
      exact first.become (by simp [ne, starter]) (by simp)
  | await t starter =>
      exact (aside (.starter true) starter (by simp) (by simp)).of_eq rfl rfl rfl rfl rfl
  | «open» t opened starter =>
      exact (aside .bystander starter (by simp) (by simp)).of_eq rfl rfl rfl rfl rfl
  | fail t aside' => exact aside .failing aside' (by simp) (by simp)
  | retire t failing => exact aside .bystander failing (by simp) (by simp)
  | record t free new => exact aside .recorder new (by simp) (by simp)
  | conclude t key result time holder =>
      exact (aside .bystander holder (by simp) (by simp)).of_eq rfl rfl rfl rfl rfl
  | founder t opened spare pumps schedule starter dropped keeps woken =>
      have marked := h.abandon keeps woken
      refine (marked.become (t := t) (r := .bystander) ?_ (by simp)).of_eq
        rfl rfl rfl rfl rfl
      intro q pump
      obtain was | ⟨q', was, -⟩ := role_of_abandon pump <;> simp [starter] at was
  | forsake pumps schedule free keeps woken => exact h.abandon keeps woken
  | stream t gvk store schedule new unfired spare untaken attached keeps ready =>
      exact h.stream new keeps ready
  | report t q e rest pump ready state =>
      have same := h.taken single (r := q) (f := { p.feed q.gvk with
        tracker := ((p.feed q.gvk).tracker.observe e).1
        arrivals := ((p.feed q.gvk).tracker.observe e).2.map (fun e => Arrival.item (.ok e)) ++
          rest }) pump ready state
      refine same.of_eq rfl rfl rfl rfl ?_
      show p.role = Function.update p.role t (.pump q)
      rw [← pump, Function.update_eq_self]
  | pass t q item rest pump ready state => exact h.taken single pump ready state
  | pick t q item rest e pump ready state => exact h.taken single pump ready state
  | send t q e pump ready state unfired kept unclosed room =>
      have out : t ∉ p.channel.waiting := by
        obtain given | ⟨out, -⟩ := room
        · exact fun there => List.disjoint_of_nodup_append h.nodup there given
        · exact out
      have sent := h.send (q := { q with state := .listening }) (e := e) ready out
      exact sent.of_eq rfl rfl rfl rfl rfl
  | queueUp t q e pump ready state unclosed full out =>
      exact h.queueUp pump state unclosed full out
  | refuse t closed => exact h.refuse closed
  | finish t q schedule pump live must keeps woken => exact h.finish keeps woken
  | hand e key c woken schedule received known keeps served =>
      have got := h.receive received keeps served
      exact got.of_eq rfl rfl rfl rfl rfl
  | skip e c woken schedule received unknown keeps served => exact h.receive received keeps served
  | stop schedule free keeps served => exact h.stop keeps served
  | push | close | relinquish => exact h.of_eq rfl rfl rfl rfl rfl

theorem Awake.take (h : p.Awake 0) (take : Take t key p p') : p'.Awake 0 := by
  obtain ⟨queue, time, result, asking, -, -⟩ := take
  have turned := h.become (t := t) (r := .holder key result) (by simp [asking]) (by simp)
  exact turned.of_eq rfl rfl rfl rfl rfl

theorem Awake.inflow {f : Feed} (h : p.Awake 0) (inflow : Inflow gvk f p p') : p'.Awake 0 := by
  obtain ⟨schedule, keeps, woken⟩ := inflow
  refine h.same ?_ (fun u hu => keeps u (h.granted u hu))
    (fun _ q _ pump state => ⟨q, pump, state⟩) ⟨_, rfl⟩
  intro u rested
  refine (h.rests u fun ready => rested (keeps u ready)).keep (fun _ pump => pump)
    ?_ id rfl
  intro q pump state
  have other : q.gvk ≠ gvk := fun here => rested (woken u q pump here state)
  simp only [reschedule_feed, feedAt_feed_of_ne other, and_self]

end Path

end ResourceWatch
