import ResourceWatch.Proofs.Engine.Parts

/-!
# Pumps on the path

What a pump does when it goes on is a sequence of steps of the path. A pump that
takes an item with a change is seen to take it first, and to offer the change
then, whether there is room for it or not.
-/

namespace ResourceWatch

theorem FilterTable.event?_change (table : FilterTable) (gvk : Gvk) (n : Notification) :
    table.event? gvk (.ok (.change n)) =
      match (table.judge gvk n).1 with
      | .drop _ => none
      | .forward e => some e := by
  simp only [event?, judge]
  cases n.reference (some gvk) with
  | error fault => rfl
  | ok ref =>
      cases table.filtersOf gvk with
      | nil => rfl
      | cons f rest =>
          dsimp only
          cases found : (f :: rest).find? (·.takes ref) <;> simp [Except.toOption, found]

/-- A change is turned away, enters the channel, or waits for room. -/
theorem Channel.offer_cases (c : Channel) (t : TaskId) (e : ChangeEvent) :
    (c.closed = true ∧ c.offer t e = ({ c with granted := c.granted.erase t }, .refused)) ∨
    (c.closed = false ∧ (t ∈ c.granted ∨ (t ∉ c.waiting ∧ 0 < c.room)) ∧
      c.offer t e = ({ c with granted := c.granted.erase t }.put e, .sent)) ∨
    (c.closed = false ∧ t ∈ c.waiting ∧ c.offer t e = (c, .wait)) ∨
    (c.closed = false ∧ (t ∉ c.granted ∧ t ∉ c.waiting) ∧ c.room = 0 ∧
      c.offer t e = ({ c with waiting := c.waiting ++ [t] }, .wait)) := by
  rw [offer]
  cases closed : c.closed with
  | true => exact .inl ⟨rfl, by rw [if_pos rfl, ← closed]⟩
  | false =>
      rw [if_neg (by simp)]
      by_cases given : t ∈ c.granted
      · exact .inr (.inl ⟨rfl, .inl given, if_pos given⟩)
      rw [if_neg given]
      by_cases waits : t ∈ c.waiting
      · exact .inr (.inr (.inl ⟨rfl, waits, if_pos waits⟩))
      rw [if_neg waits]
      by_cases room : 0 < c.room
      · have same : c.granted.erase t = c.granted := List.erase_of_not_mem given
        exact .inr (.inl ⟨rfl, .inr ⟨waits, room⟩, by rw [if_pos room, same, ← closed]⟩)
      · exact .inr (.inr (.inr ⟨rfl, ⟨given, waits⟩, Nat.eq_zero_of_not_pos room, if_neg room⟩))

namespace Engine

open ResourceWatch.Path

variable {w : Engine} {t : TaskId} {q : Pump} (alone : Prop)

@[simp] theorem wakeAll_tasks (w : Engine) (ts : List TaskId) :
    (w.wakeAll ts).tasks = w.tasks := rfl

@[simp] theorem noticeSilence_tasks (w : Engine) : w.noticeSilence.tasks = w.tasks := by
  rw [noticeSilence]
  split <;> rfl

theorem lt_of_role_pump (pump : w.role t = .pump q) : t < w.tasks.length :=
  (List.getElem?_eq_some_iff.1 (role_eq_pump.1 pump)).1

/-- A pump that has a reason to ends; whatever its state, it was not taken back by
anybody. -/
theorem steps_endPump (pump : w.role t = .pump q) (state : PumpState) (live : state ≠ .ended)
    (must : w.path.MustEnd { q with state }) :
    Steps alone (w.path.become t (.pump { q with state })) (w.endPump t q).path ∧
      (w.endPump t q).path.MayRest t := by
  have known := lt_of_role_pump pump
  have ended : (w.endPump t q).role t = .pump { q with state := .ended } := by
    rw [role_eq_pump]
    simp [endPump, wakeAwaiting, setTask, known]
  constructor
  · let w' := { w with channel := (w.channel.withdraw t).1 }.setTask t
      (.pump { q with state := .ended })
    have marked : w'.path = (w.path.withChannel (w.channel.withdraw t).1).become t
        (.pump { q with state := .ended }) :=
      path_setTask (w := { w with channel := (w.channel.withdraw t).1 }) known _
    have first : Step alone (w.path.become t (.pump { q with state }))
        (w'.wakeAll (w.channel.withdraw t).2.toList).path := by
      refine Step.to (.finish t { q with state }
        (w.shop.schedule.wakeAll (w.channel.withdraw t).2.toList) become_role_self live must
        (Schedule.keeps_wakeAll _ _) ?_) ?_
      · intro u hu
        exact Schedule.mem_wakeAll.2 (.inr (by simpa using hu))
      · rw [path_wakeAll, marked]
        simp [w', setTask]
    exact .head first ((stirs_wakeAll _ _).trans (stirs_noticeSilence _)).steps
  · intro q' h
    rw [path_role, ended, Role.pump.injEq] at h
    exact .inl (h ▸ rfl)

/-- A pump that offers a change hands it in, waits for room, or ends. -/
theorem steps_offer (pump : w.role t = .pump q) (ready : t ∈ w.shop.schedule.ready)
    (unfired : w.fired = false) (kept : q.aborted = false) (e : ChangeEvent) :
    Steps alone (w.path.become t (.pump { q with state := .sending e })) (w.offer t q e).1.path ∧
      ((w.offer t q e).2 = .rests → (w.offer t q e).1.path.MayRest t) := by
  have known := lt_of_role_pump pump
  have may_rest {p : Path} (same : p = (w.path.become t (.pump { q with state := .sending e })
      ).withChannel p.channel) (waits : t ∈ p.channel.waiting) : p.MayRest t := by
    intro q' h
    rw [same] at h
    simp only [withChannel_role, become_role, Function.update_self, Role.pump.injEq] at h
    subst h
    exact .inr ⟨by rw [same]; exact unfired, kept, .inr ⟨e, rfl, waits⟩⟩
  have sends {c : Channel} (offered : w.channel.offer t e = (c, .sent))
      (step : Step alone (w.path.become t (.pump { q with state := .sending e }))
        (((w.path.withChannel c).become t (.pump { q with state := .listening })).note
          (.entered e))) :
      Steps alone (w.path.become t (.pump { q with state := .sending e })) (w.offer t q e).1.path ∧
        ((w.offer t q e).2 = .rests → (w.offer t q e).1.path.MayRest t) := by
    let w' := ({ w with channel := c }.setTask t
      (.pump { q with state := .listening })).note (.entered e)
    have after : w'.path = ((w.path.withChannel c).become t
        (.pump { q with state := .listening })).note (.entered e) := by
      have marked := path_setTask (w := { w with channel := c }) known
        (.pump { q with state := .listening })
      simp only [w', path_note, Occurrence.isMilestone, if_true, marked]
      rfl
    have rest : Steps alone w'.path (w'.wakeListener.note (.handled .forwarded)).path := by
      simpa [Occurrence.isMilestone] using w'.stirs_wakeListener.steps
    have same : w.offer t q e = (w'.wakeListener.note (.handled .forwarded), .goesOn) := by
      simp only [offer, offered]
      rfl
    rw [same]
    exact ⟨.head (after ▸ step) rest, by simp⟩
  obtain ⟨closed, offered⟩ | ⟨unclosed, room, offered⟩ | ⟨unclosed, waits, offered⟩ |
      ⟨unclosed, out, full, offered⟩ := w.channel.offer_cases t e
  · let w' := { w with channel := { w.channel with granted := w.channel.granted.erase t } }.note
      (.handled .closed)
    have same : w.offer t q e = (w'.endPump t q, .rests) := by simp only [offer, offered, w']
    have after : w'.path =
        w.path.withChannel { w.channel with granted := w.channel.granted.erase t } := by
      simp only [w', path_note, Occurrence.isMilestone]
      rfl
    have refused : Step alone (w.path.become t (.pump { q with state := .sending e }))
        (w'.path.become t (.pump { q with state := .sending e })) :=
      Step.to (.refuse t closed) (by rw [after]; rfl)
    obtain ⟨steps, may⟩ := steps_endPump alone (w := w') pump (.sending e) (by simp)
      (.inr (.inr (.inl closed)))
    rw [same]
    exact ⟨.head refused steps, fun _ => may⟩
  · exact sends offered (Step.to (.send t _ e become_role_self ready rfl unfired kept unclosed
      room) (by simp))
  · have same : w.offer t q e = (w.setTask t (.pump { q with state := .sending e }), .rests) := by
      simp only [offer, offered]
    rw [same, path_setTask known]
    exact ⟨.refl, fun _ => may_rest rfl waits⟩
  · let w' := { w with channel := { w.channel with waiting := w.channel.waiting ++ [t] } }
    have same : w.offer t q e =
        (w'.setTask t (.pump { q with state := .sending e }), .rests) := by
      simp only [offer, offered, w']
    have after : (w'.setTask t (.pump { q with state := .sending e })).path =
        (w.path.become t (.pump { q with state := .sending e })).withChannel w'.channel :=
      path_setTask (w := w') known _
    rw [same, after]
    exact ⟨.single (.queueUp t _ e become_role_self ready rfl unclosed full out),
      fun _ => may_rest rfl (by simp [w'])⟩

theorem path_put (w : Engine) (gvk : Gvk) (f : Feed) (same : f.gvk = gvk) :
    { w with provider := w.provider.put f }.path = w.path.feedAt gvk f := by
  simp only [path, feedAt, Provider.feed_put, Provider.put_cached, same]
  rfl

/-- A pump that has taken an item is done with it, or offers the change in it. -/
theorem steps_deliver {w' : Engine} {item : StreamItem} {rest : List Arrival}
    (pump : w.role t = .pump q) (state : q.state = .listening)
    (ready : t ∈ w.shop.schedule.ready) (unfired : w.fired = false) (kept : q.aborted = false)
    (next : (w.provider.feed q.gvk).arrivals = .item item :: rest)
    (taken : w'.path = w.path.feedAt q.gvk { w.provider.feed q.gvk with arrivals := rest }) :
    Steps alone w.path (w'.deliver t q item).1.path ∧
      ((w'.deliver t q item).2 = .rests → (w'.deliver t q item).1.path.MayRest t) := by
  have pump' : w'.role t = .pump q := (congrArg (Path.role · t) taken).trans pump
  have known := lt_of_role_pump pump'
  have passes (nothing : w.plan.filterTable.event? q.gvk item = none)
      (plain : StreamItem.isMark item = false) : Steps alone w.path w'.path := by
    refine .single (Step.to (.pass t q item rest pump ready state unfired kept next nothing) ?_)
    rw [plain, Bool.or_false, taken]
    exact become_eq_self pump
  cases item with
  | error e =>
      refine ⟨?_, by simp [deliver]⟩
      simpa [deliver, Occurrence.isMilestone] using passes rfl rfl
  | ok event =>
      cases event with
      | hydrated =>
          refine ⟨?_, by simp [deliver]⟩
          have pass : Step alone w.path
              (w'.setTask t (.pump { q with hydrated := true })).path := by
            refine Step.to (.pass t q _ rest pump ready state unfired kept next rfl) ?_
            rw [path_setTask known, taken]
            simp [StreamItem.isMark, EngineTask.role]
          exact .head pass (stirs_wakeAll _ _).steps
      | change n =>
          have table : w'.plan.filterTable = w.plan.filterTable := congrArg Path.table taken
          have event := w.plan.filterTable.event?_change q.gvk n
          rcases judged : w'.plan.filterTable.judge q.gvk n with ⟨verdict, log⟩
          rw [← table, judged, table] at event
          cases verdict with
          | drop outcome =>
              refine ⟨?_, by simp [deliver, judged]⟩
              simpa [deliver, judged, Occurrence.isMilestone] using passes event rfl
          | forward e =>
              have pick : Step alone w.path
                  (w'.path.become t (.pump { q with state := .sending e })) :=
                Step.to (.pick t q _ rest e pump ready state unfired kept next event)
                  (by rw [taken]; rfl)
              have logged : (w'.log log).path = w'.path := log_path w' log
              have same := logged.trans taken
              have schedule : (w'.log log).shop.schedule = w.shop.schedule :=
                congrArg Path.schedule same
              obtain ⟨steps, may⟩ := steps_offer alone (w := w'.log log)
                ((congrArg (Path.role · t) same).trans pump) (by rw [schedule]; exact ready)
                ((congrArg Path.fired same).trans unfired) kept e
              simp only [deliver, judged]
              rw [logged] at steps
              exact ⟨.head pick steps, may⟩

/-- A pump takes the next thing from its stream. -/
theorem steps_listen (pump : w.role t = .pump q) (state : q.state = .listening)
    (ready : t ∈ w.shop.schedule.ready) (unfired : w.fired = false) (kept : q.aborted = false) :
    Steps alone w.path (w.listen t q).1.path ∧
      ((w.listen t q).2 = .rests → (w.listen t q).1.path.MayRest t) := by
  simp only [listen]
  split
  · rename_i empty
    split
    · rename_i live
      refine ⟨.refl, ?_⟩
      intro _ q' h
      obtain rfl : q = q' := Role.pump.inj (pump.symm.trans h)
      exact .inr ⟨unfired, kept, .inl ⟨state, empty, live⟩⟩
    · rename_i ended
      have same : { q with state := .listening } = q := by rw [← state]
      have steps := steps_endPump alone pump .listening (by simp)
        (.inr (.inr (.inr ⟨rfl, empty, by simpa using ended⟩)))
      rw [same, become_eq_self pump] at steps
      exact ⟨steps.1, fun _ => steps.2⟩
  · rename_i item rest next
    exact steps_deliver alone pump state ready unfired kept next
      (w.path_put q.gvk _ (Provider.feed_gvk _ _))
  · rename_i e rest next
    refine ⟨.single (Step.to (.report t q e rest pump ready state unfired kept next) ?_), by simp⟩
    simp only [path, feedAt, withStore, Provider.feed_put, Provider.put_cached, Feed.track,
      Provider.feed_gvk, Path.mk.injEq, true_and]
    exact ⟨(funext fun g => w.shop.cache.store?_apply q.gvk g e).symm, rfl⟩

theorem steps_actPump (pump : w.role t = .pump q) (ready : t ∈ w.shop.schedule.ready) :
    Steps alone w.path (w.actPump t q).1.path ∧
      ((w.actPump t q).2 = .rests → (w.actPump t q).1.path.MayRest t) := by
  have ends (state : PumpState) (here : q.state = state) (live : state ≠ .ended)
      (must : q.aborted || w.fired) : Steps alone w.path (w.endPump t q).path ∧
        (Progress.rests = .rests → (w.endPump t q).path.MayRest t) := by
    have same : { q with state } = q := by rw [← here]
    have steps := steps_endPump alone pump state live
      (by rw [Bool.or_eq_true] at must; exact must.imp_right .inl)
    rw [same, become_eq_self pump] at steps
    exact ⟨steps.1, fun _ => steps.2⟩
  have keeps (go : ¬(q.aborted || w.fired) = true) : w.fired = false ∧ q.aborted = false := by
    simpa [and_comm] using go
  cases state : q.state with
  | ended =>
      simp only [actPump, state]
      refine ⟨.refl, fun _ q' h => .inl ?_⟩
      obtain rfl : q = q' := Role.pump.inj (pump.symm.trans h)
      exact state
  | listening =>
      simp only [actPump, state]
      split
      · rename_i must
        exact ends .listening state (by simp) must
      · rename_i go
        exact steps_listen alone pump state ready (keeps go).1 (keeps go).2
  | sending e =>
      simp only [actPump, state]
      split
      · rename_i must
        exact ends (.sending e) state (by simp) must
      · rename_i go
        have steps := steps_offer alone pump ready (keeps go).1 (keeps go).2 e
        have same : { q with state := .sending e } = q := by rw [← state]
        rwa [same, become_eq_self pump] at steps

end Engine

end ResourceWatch
