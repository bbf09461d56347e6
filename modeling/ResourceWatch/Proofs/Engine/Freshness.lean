import ResourceWatch.Proofs.Engine.Answers
import ResourceWatch.Proofs.Engine.Forwarding
import ResourceWatch.Proofs.Key
import ResourceWatch.Proofs.Upkeep

/-!
# How fresh the last answer is

A pipeline whose reconciles look at the cache is left to itself, and its streams
report what the cluster interface reports. Once nothing is on its way, the last
reconcile of an object began when the store and the open full list, if there was
one, already said together what the store says now.

So the last answer is current unless a full list was open at that moment and said
something else than the store. That happens: a full list is announced object by
object while it is open, but takes the place of the store only at its end.
-/

namespace ResourceWatch

def Observation.of : Option Object → Observation
  | none => .notFound
  | some o => .found o.metadata.uid o.metadata.resourceVersion

namespace Cache

def at? (c : Cache) (k : ObjectKey) : Option Object :=
  (c.store? k.gvk).bind fun s => s.at? (.at k.ns k.name)

/-- The object at its own place, as it will be if the open full list, if there is
one, says no more about it. -/
def upcoming? (c : Cache) (k : ObjectKey) : Option Object :=
  (c.store? k.gvk).bind fun s => s.upcoming? (.at k.ns k.name)

/-- A look-up finds the object at its own place or, failing that, the one of its name
without a namespace. -/
theorem get?_eq (c : Cache) (k : ObjectKey) :
    c.get? k.gvk k.ns k.name = (c.at? k <|> c.at? { k with ns := "" }) := by
  simp only [get?, at?]
  cases c.store? k.gvk with
  | none => rfl
  | some s => rfl

/-- A reconcile of an object that has a key tells what a look-up finds. -/
theorem observe_encode (c : Cache) (plan : WatchPlan) {k : ObjectKey} (h : k.Readable) :
    (c.observe plan k.encode).1 = .ok (.of (c.get? k.gvk k.ns k.name)) := by
  rw [observe]
  rw [ObjectKey.decode_encode h]
  dsimp only
  cases c.get? k.gvk k.ns k.name <;> rfl

end Cache

/-- Whether reports come in order, while a full list is open or none is. -/
def inOrder (listing : Bool) : List Arrival → Bool
  | [] => true
  | .item _ :: rest => inOrder listing rest
  | .report e :: rest => e.fits listing && inOrder (e.opens listing) rest

/-- Whether a full list is open after everything that arrives has been taken. -/
def listingAfter (listing : Bool) : List Arrival → Bool
  | [] => listing
  | .item _ :: rest => listingAfter listing rest
  | .report e :: rest => listingAfter (e.opens listing) rest

theorem inOrder_append (listing : Bool) (a b : List Arrival) :
    inOrder listing (a ++ b) = (inOrder listing a && inOrder (listingAfter listing a) b) := by
  induction a generalizing listing with
  | nil => rfl
  | cons x a ih => cases x <;> simp [inOrder, listingAfter, ih, Bool.and_assoc]

theorem listingAfter_append (listing : Bool) (a b : List Arrival) :
    listingAfter listing (a ++ b) = listingAfter (listingAfter listing a) b := by
  induction a generalizing listing with
  | nil => rfl
  | cons x a ih => cases x <;> simp [listingAfter, ih]

/-- Items do not matter to the order of reports. -/
theorem inOrder_items (listing : Bool) (events : List StreamEvent) (rest : List Arrival) :
    inOrder listing (events.map (fun e => Arrival.item (.ok e)) ++ rest) = inOrder listing rest ∧
      listingAfter listing (events.map (fun e => Arrival.item (.ok e)) ++ rest) =
        listingAfter listing rest := by
  induction events with
  | nil => exact ⟨rfl, rfl⟩
  | cons e events ih => exact ih

theorem Tracker.observe_listing (t : Tracker) (e : WatchEvent) :
    (t.observe e).1.listing.isSome = e.opens t.listing.isSome := by
  have applied (t : Tracker) (o : Object) : (t.apply o).1.listing = t.listing := by
    rw [apply]
    split <;> rfl
  cases e with
  | listBegin | listEnd => rfl
  | applied o => exact congrArg Option.isSome (applied t o)
  | deleted o => cases tracked : o.key? <;> simp [observe, tracked, WatchEvent.opens]
  | listed o =>
      simp only [observe, applied, WatchEvent.opens]
      cases o.key? <;> simp [mention]

/-- A notification about an object that a filter takes amounts to a change of it. -/
theorem FilterTable.event?_of_is {table : FilterTable} {gvk : Gvk} {ns name : String}
    {n : Notification} {o : Object} (carries : n.object? = some o) (own : o.Is ns name)
    (selected : ∃ f ∈ table.filtersOf gvk, f.selector.selects ns name = true) :
    ∃ e, table.event? gvk (.ok (.change n)) = some e ∧
      ObjectKey.ofReference? e.reference = some ⟨gvk, ns, name⟩ := by
  obtain ⟨space, named⟩ := own
  let ref : Reference := ⟨some gvk, ns, name, o.metadata.uid, o.metadata.resourceVersion⟩
  have known : Reference.ofObject? o (some gvk) = some ref := by
    simp [Reference.ofObject?, named, space, ref]
  have refers : n.reference (some gvk) = .ok ref := by
    cases n with
    | added | updated =>
        cases carries
        simp [Notification.reference, known]
    | deleted deletion =>
        cases deletion <;> cases carries <;> simp [Notification.reference, known]
  obtain ⟨f, there, takes⟩ := selected
  have some_takes : ((table.filtersOf gvk).find? (·.takes ref)).isSome = true :=
    List.find?_isSome.2 ⟨f, there, takes⟩
  obtain ⟨first, found⟩ := Option.isSome_iff_exists.1 some_takes
  refine ⟨⟨ref, first.owner, n.action⟩, ?_, rfl⟩
  simp [event?, refers, found, Except.toOption]

namespace Path

variable {p p' : Path} {t : TaskId} {key : String} {gvk : Gvk} {alone : Prop} {k : ObjectKey}
  {arrived : List Arrival}

/-- The store of a kind, which is empty before there is one. -/
def storeOf (p : Path) (gvk : Gvk) : Store := (p.store gvk).getD {}

/-- The store of a kind keeps step with its tracker, and what is still to be taken
comes in order. -/
structure InStep (k : ObjectKey) (arrived : List Arrival) (p : Path) : Prop where
  upkeep : Upkeep k.ns k.name (p.storeOf k.gvk) (p.feed k.gvk).tracker
  ordered : inOrder (p.feed k.gvk).tracker.listing.isSome (p.feed k.gvk).arrivals = true
  listing : listingAfter (p.feed k.gvk).tracker.listing.isSome (p.feed k.gvk).arrivals =
    listingAfter false arrived
  cached : p.cached = true
  attached : ∀ g, (p.feed g).taken = true → (p.store g).isSome = true

/-- A stream that is open has its store, if streams get stores. -/
theorem Step.attached (step : Step alone p p') (cached : p.cached = true)
    (attached : ∀ g, (p.feed g).taken = true → (p.store g).isSome = true) :
    p'.cached = true ∧ ∀ g, (p'.feed g).taken = true → (p'.store g).isSome = true := by
  have same {q : Pump} {f : Feed} {g : Gvk} (taken : ((p.feedAt q.gvk f).feed g).taken = true)
      (keeps : f.taken = (p.feed q.gvk).taken) : (p.store g).isSome = true :=
    attached g ((feedAt_congr Feed.taken keeps g).symm.trans taken)
  cases step with
  | stream t gvk store schedule new unfired spare untaken opened =>
      simp only [cached, if_true] at opened
      obtain ⟨none, rfl⟩ := opened
      refine ⟨cached, ?_⟩
      intro g taken
      by_cases here : g = gvk
      · simp [here]
      · simp only [reschedule_feed, become_feed, feedAt_feed, withStore_feed,
          Function.update_of_ne here] at taken
        simpa [Function.update_of_ne here] using attached g taken
  | report => exact ⟨cached, fun g taken => by simpa using same taken rfl⟩
  | pass | pick => exact ⟨cached, fun g taken => same taken rfl⟩
  | _ => exact ⟨cached, attached⟩

/-- What a step takes from the stream of a kind, and what becomes of its store. -/
inductive Taking (gvk : Gvk) (p p' : Path) : Prop where
  | nothing (tracker : (p'.feed gvk).tracker = (p.feed gvk).tracker)
      (arrivals : (p'.feed gvk).arrivals = (p.feed gvk).arrivals)
      (store : p'.storeOf gvk = p.storeOf gvk)
  | item (item : StreamItem) (next : (p.feed gvk).arrivals = .item item :: (p'.feed gvk).arrivals)
      (tracker : (p'.feed gvk).tracker = (p.feed gvk).tracker)
      (store : p'.storeOf gvk = p.storeOf gvk)
      (passed : p.table.event? gvk item = none ∨ ∃ t q e, p.table.event? gvk item = some e ∧
        p'.role t = .pump q ∧ q.gvk = gvk ∧ q.state = .sending e)
  | report (e : WatchEvent) (rest : List Arrival)
      (next : (p.feed gvk).arrivals = .report e :: rest)
      (tracker : (p'.feed gvk).tracker = ((p.feed gvk).tracker.observe e).1)
      (arrivals : (p'.feed gvk).arrivals =
        ((p.feed gvk).tracker.observe e).2.map (fun e => Arrival.item (.ok e)) ++ rest)
      (store : p'.storeOf gvk = (p.storeOf gvk).apply e)

/-- What happens to other kinds takes nothing from the stream. -/
theorem Taking.elsewhere {gvk : Gvk} (feed : p'.feed gvk = p.feed gvk)
    (store : p'.storeOf gvk = p.storeOf gvk) : Taking gvk p p' :=
  .nothing (by rw [feed]) (by rw [feed]) store

theorem Step.taking (step : Step alone p p') (single : p.Single) (cached : p.cached = true)
    (attached : ∀ g, (p.feed g).taken = true → (p.store g).isSome = true) (gvk : Gvk) :
    Taking gvk p p' := by
  cases step with
  | stream t g store schedule new unfired spare untaken opened =>
      simp only [cached, if_true] at opened
      obtain ⟨none, rfl⟩ := opened
      by_cases here : gvk = g
      · subst here
        exact .nothing (by simp) (by simp) (by simp [storeOf, none])
      · exact .elsewhere (feedAt_feed_of_ne here) (by simp [storeOf, Function.update_of_ne here])
  | report t q e rest pump ready state unfired kept next =>
      by_cases here : gvk = q.gvk
      · subst here
        obtain ⟨s, there⟩ := Option.isSome_iff_exists.1 (attached _ (single.taken t q pump))
        exact .report e rest next (by simp) (by simp) (by simp [storeOf, there])
      · exact .elsewhere (feedAt_feed_of_ne here) (by simp [storeOf, here])
  | pass t q item rest pump ready state unfired kept next change =>
      by_cases here : gvk = q.gvk
      · subst here
        exact .item item (by simp [next]) (by simp) rfl (.inl change)
      · exact .elsewhere (feedAt_feed_of_ne here) rfl
  | pick t q item rest e pump ready state unfired kept next change =>
      by_cases here : gvk = q.gvk
      · subst here
        exact .item item (by simp [next]) (by simp) rfl
          (.inr ⟨t, _, e, change, become_role_self, rfl, rfl⟩)
      · exact .elsewhere (feedAt_feed_of_ne here) rfl
  | _ => exact .nothing rfl rfl rfl

theorem InStep.step (h : InStep k arrived p) (plain : PlainName k.ns k.name) (single : p.Single)
    (step : Step alone p p') : InStep k arrived p' := by
  obtain ⟨cached, attached⟩ := step.attached h.cached h.attached
  cases step.taking single h.cached h.attached k.gvk with
  | nothing tracker arrivals store =>
      exact ⟨by rw [store, tracker]; exact h.upkeep, by rw [tracker, arrivals]; exact h.ordered,
        by rw [tracker, arrivals]; exact h.listing, cached, attached⟩
  | item item next tracker store =>
      have ordered := h.ordered
      have listing := h.listing
      rw [next] at ordered listing
      exact ⟨by rw [store, tracker]; exact h.upkeep, by rw [tracker]; exact ordered,
        by rw [tracker]; exact listing, cached, attached⟩
  | report e rest next tracker arrivals store =>
      have ordered := h.ordered
      have listing := h.listing
      rw [next] at ordered listing
      simp only [inOrder, Bool.and_eq_true] at ordered
      refine ⟨?_, ?_, ?_, cached, attached⟩
      · rw [store, tracker]
        exact (h.upkeep.observe plain ordered.1).1
      · rw [tracker, arrivals, (inOrder_items _ _ _).1, Tracker.observe_listing]
        exact ordered.2
      · rw [tracker, arrivals, (inOrder_items _ _ _).2, Tracker.observe_listing]
        exact listing

/-- A change of an object is on its way to a reconcile. -/
inductive Pending (k : ObjectKey) (p : Path) : Prop where
  /-- It stands in the stream. -/
  | arriving (item : StreamItem) (e : ChangeEvent)
      (there : .item item ∈ (p.feed k.gvk).arrivals)
      (change : p.table.event? k.gvk item = some e)
      (about : ObjectKey.ofReference? e.reference = some k)
  /-- A pump waits for room for it. -/
  | sending (t : TaskId) (q : Pump) (e : ChangeEvent) (pump : p.role t = .pump q)
      (kind : q.gvk = k.gvk) (state : q.state = .sending e)
      (about : ObjectKey.ofReference? e.reference = some k)
  /-- It is in the channel. -/
  | entered (e : ChangeEvent) (there : e ∈ p.channel.buffer)
      (about : ObjectKey.ofReference? e.reference = some k)
  /-- The key of the object waits to be handed out. -/
  | dirty (there : k.encode ∈ p.queue.dirty)

/-- A pump with a change keeps it, or puts it into the channel, or has a reason to
end. -/
theorem Step.sender {q : Pump} {e : ChangeEvent} (step : Step alone p p')
    (pump : p.role t = .pump q) (state : q.state = .sending e) :
    (∃ q', p'.role t = .pump q' ∧ q'.gvk = q.gvk ∧ q'.state = .sending e) ∨
      e ∈ p'.channel.buffer ∨ p.MustEnd q := by
  have others {u : TaskId} {r r' : Role} (was : p.role u = r) (differs : r ≠ .pump q) :
      ∃ q', (p.become u r').role t = .pump q' ∧ q'.gvk = q.gvk ∧ q'.state = .sending e := by
    have ne : t ≠ u := by
      rintro rfl
      exact differs (was.symm.trans pump)
    exact ⟨q, (become_role_of_ne ne).trans pump, rfl, state⟩
  have marked (ts : List TaskId) :
      ∃ q', (p.abandon ts).role t = .pump q' ∧ q'.gvk = q.gvk ∧ q'.state = .sending e := by
    by_cases member : t ∈ ts
    · exact ⟨{ q with aborted := true }, by simp [member, pump, Role.abandon, state], rfl, state⟩
    · exact ⟨q, by simp [member, pump], rfl, state⟩
  have busy {q₁ : Pump} (listening : q₁.state = .listening) : Role.pump q₁ ≠ .pump q := by
    rintro ⟨⟩
    simp [state] at listening
  cases step with
  | begin u unstarted new | fail u new | record u free new | stream u gvk store schedule new =>
      exact .inl (others new (by simp))
  | await u starter | «open» u opened starter => exact .inl (others starter (by simp))
  | retire u failing => exact .inl (others failing (by simp))
  | conclude u key result time holder => exact .inl (others holder (by simp))
  | delegate u v starter new =>
      have ne : t ≠ u ∧ t ≠ v := by
        constructor <;> rintro rfl
        · simp [starter] at pump
        · simp [new] at pump
      exact .inl ⟨q, by simp [ne.1, ne.2, pump], rfl, state⟩
  | founder u opened spare pumps schedule starter =>
      obtain ⟨q', still, kept⟩ := marked pumps
      have ne : t ≠ u := by
        rintro rfl
        simp [starter] at pump
      exact .inl ⟨q', (become_role_of_ne ne).trans still, kept⟩
  | forsake pumps => exact .inl (marked pumps)
  | pass u q₁ item rest was ready listening => exact .inl (others was (busy listening))
  | pick u q₁ item rest e₁ was ready listening => exact .inl (others was (busy listening))
  | send u q₁ e₁ was ready sending =>
      by_cases same : t = u
      · subst same
        obtain rfl := Role.pump.inj (was.symm.trans pump)
        obtain rfl := PumpState.sending.inj (sending.symm.trans state)
        exact .inr (.inl (by simp [Channel.put]))
      · exact .inl ⟨q, (become_role_of_ne same).trans pump, rfl, state⟩
  | finish u q₁ schedule was live must =>
      by_cases same : t = u
      · subst same
        obtain rfl := Role.pump.inj (was.symm.trans pump)
        exact .inr (.inr must)
      · exact .inl ⟨q, (become_role_of_ne same).trans pump, rfl, state⟩
  | _ => exact .inl ⟨q, pump, rfl, state⟩

/-- A change on its way stays on its way, unless the token has fired or startup has
failed. -/
theorem Pending.step (h : p.Pending k) (lone : p.Lone) (single : p.Single)
    (kept : InStep k arrived p) (unfired : p'.fired = false) (step : Step True p p')
    (gate : p.gate ≠ .cancelled) : p'.Pending k := by
  have unfired := step.unfired unfired
  cases h with
  | arriving item e there change about =>
      have table := step.table
      cases step.taking single kept.cached kept.attached k.gvk with
      | nothing tracker arrivals store =>
          exact .arriving item e (arrivals ▸ there) (table ▸ change) about
      | item first next tracker store passed =>
          rw [next, List.mem_cons] at there
          obtain same | there := there
          · cases same
            obtain none | ⟨t, q, e', change', pump, kind, state⟩ := passed
            · simp [none] at change
            · obtain rfl := Option.some.inj (change.symm.trans change')
              exact .sending t q e pump kind state about
          · exact .arriving item e there (table ▸ change) about
      | report r rest next tracker arrivals store =>
          rw [next, List.mem_cons] at there
          obtain same | there := there
          · simp at same
          · exact .arriving item e (arrivals ▸ List.mem_append_right _ there) (table ▸ change) about
  | sending t q e pump kind state about =>
      obtain ⟨q', still, same, state'⟩ | there | must := step.sender pump state
      · exact .sending t q' e still (same.trans kind) state' about
      · exact .entered e there about
      · -- none of the reasons to end can hold while changes are to arrive
        exfalso
        obtain aborted | fired | closed | ⟨listening, -⟩ := must
        · obtain cancelled | fired := lone.kept t q pump aborted
          · exact gate cancelled
          · simp [unfired] at fired
        · simp [unfired] at fired
        · obtain fired | ⟨-, ended⟩ := lone.silent closed
          · simp [unfired] at fired
          · have ends := ended t q pump
            simp [state] at ends
        · simp [state] at listening
  | entered e there about =>
      cases step.carry with
      | stay buffer => exact .entered e (buffer ▸ there) about
      | enter t q e' pump state buffer =>
          exact .entered e (buffer ▸ List.mem_append_left _ there) about
      | leave first buffer record handed =>
          rw [buffer, List.mem_cons] at there
          obtain rfl | there := there
          · obtain ⟨key, known, queue⟩ | unknown := handed
            · obtain rfl := Option.some.inj (about.symm.trans known)
              refine .dirty ?_
              rw [queue]
              refine WorkQueue.mem_push_dirty.2 (.inr ⟨rfl, ?_⟩)
              by_contra closed
              simp [lone.working (by simpa using closed)] at unfired
            · simp [unknown trivial] at about
          · exact .entered e there about
      | drop free =>
          obtain fired | empty := free trivial
          · simp [unfired] at fired
          · simp [empty] at there
  | dirty there => exact .dirty (step.dirty there)

/-- What has become of an object since it was looked at last: a change of it is on its
way, or it is known and the open full list has not named it, or what it will be is
what it would be then. -/
def Fresh (k : ObjectKey) (looked : Option Object) (p : Path) : Prop :=
  p.Pending k ∨ (p.feed k.gvk).tracker.awaits (joinedName k.ns k.name) ∨
    (p.storeOf k.gvk).upcoming? (.at k.ns k.name) = looked

theorem Fresh.step {looked : Option Object} (h : p.Fresh k looked) (lone : p.Lone)
    (single : p.Single) (kept : InStep k arrived p) (plain : PlainName k.ns k.name)
    (selected : ∃ f ∈ p.table.filtersOf k.gvk, f.selector.selects k.ns k.name = true)
    (unfired : p'.fired = false) (gate : p.gate ≠ .cancelled) (step : Step True p p') :
    p'.Fresh k looked := by
  obtain pending | rest := h
  · exact .inl (pending.step lone single kept unfired step gate)
  · cases step.taking single kept.cached kept.attached k.gvk with
    | nothing tracker arrivals store => exact .inr (by rw [tracker, store]; exact rest)
    | item item next tracker store => exact .inr (by rw [tracker, store]; exact rest)
    | report e more next tracker arrivals store =>
        have ordered := kept.ordered
        rw [next] at ordered
        simp only [inOrder, Bool.and_eq_true] at ordered
        obtain ⟨n, there, o, carries, own⟩ | rest :=
          (kept.upkeep.observe plain ordered.1).2 looked rest
        · obtain ⟨e', change, about⟩ := FilterTable.event?_of_is carries own selected
          refine .inl (.arriving (.ok (.change n)) e' ?_ (step.table ▸ change) about)
          rw [arrivals]
          exact List.mem_append_left _ (List.mem_map.2 ⟨_, there, rfl⟩)
        · exact .inr (by rw [tracker, store]; exact rest)

/-- Handing out a key takes nothing from a stream. -/
theorem InStep.take (h : InStep k arrived p) (take : Take t key p p') : InStep k arrived p' := by
  cases take
  exact ⟨h.upkeep, h.ordered, h.listing, h.cached, h.attached⟩

/-- What comes in for the kind is put behind what has arrived. -/
theorem InStep.inflow {more : List Arrival} {f : Feed} (h : InStep k arrived p)
    (inflow : Inflow k.gvk f p p') (arrivals : f.arrivals = (p.feed k.gvk).arrivals ++ more)
    (tracker : f.tracker = (p.feed k.gvk).tracker) (taken : f.taken = (p.feed k.gvk).taken)
    (ordered : inOrder (listingAfter false arrived) more = true) :
    InStep k (arrived ++ more) p' := by
  obtain ⟨schedule, keeps, woken⟩ := inflow
  have feed : ((p.feedAt k.gvk f).reschedule schedule).feed k.gvk = f := by simp
  refine ⟨?_, ?_, ?_, h.cached, ?_⟩
  · rw [feed, tracker]
    exact h.upkeep
  · rw [feed, tracker, arrivals, inOrder_append, h.ordered, h.listing, ordered]
    rfl
  · rw [feed, tracker, arrivals, listingAfter_append, h.listing, listingAfter_append]
  · intro g opened
    exact h.attached g ((feedAt_congr Feed.taken taken g).symm.trans opened)

/-- What comes in for another kind is nothing to the object. -/
theorem InStep.elsewhere {f : Feed} (h : InStep k arrived p) (inflow : Inflow gvk f p p')
    (taken : f.taken = (p.feed gvk).taken) (other : k.gvk ≠ gvk) : InStep k arrived p' := by
  obtain ⟨schedule, keeps, woken⟩ := inflow
  have feed : ((p.feedAt gvk f).reschedule schedule).feed k.gvk = p.feed k.gvk :=
    feedAt_feed_of_ne other
  refine ⟨?_, ?_, ?_, h.cached, ?_⟩
  · rw [feed]
    exact h.upkeep
  · rw [feed]
    exact h.ordered
  · rw [feed]
    exact h.listing
  · intro g opened
    exact h.attached g ((feedAt_congr Feed.taken taken g).symm.trans opened)

/-- When another key is handed out, a change stays on its way. -/
theorem Pending.take (h : p.Pending k) (working : p.Working) (take : Take t key p p')
    (other : key ≠ k.encode) : p'.Pending k := by
  obtain ⟨queue, time, result, asking, taken, -⟩ := take
  cases h with
  | arriving item e there change about => exact .arriving item e there change about
  | sending u q e pump kind state about =>
      have ne : u ≠ t := by
        rintro rfl
        exact absurd (asking.symm.trans pump) (by simp)
      exact .sending u q e ((become_role_of_ne ne).trans pump) kind state about
  | entered e there about => exact .entered e there about
  | dirty there =>
      exact .dirty ((working.consistent.mem_take?_dirty taken).2 ⟨other.symm, there⟩)

theorem Fresh.take {looked : Option Object} (h : p.Fresh k looked) (working : p.Working)
    (take : Take t key p p') (other : key ≠ k.encode) : p'.Fresh k looked := by
  obtain pending | rest := h
  · exact .inl (pending.take working take other)
  · refine .inr ?_
    rw [take.feed, storeOf, take.untouched.store]
    exact rest

/-- What comes in leaves what is on its way on its way. -/
theorem Fresh.inflow {looked : Option Object} {more : List Arrival} {f : Feed}
    (h : p.Fresh k looked) (inflow : Inflow gvk f p p')
    (arrivals : f.arrivals = (p.feed gvk).arrivals ++ more)
    (tracker : f.tracker = (p.feed gvk).tracker) : p'.Fresh k looked := by
  obtain ⟨schedule, keeps, woken⟩ := inflow
  have still : (((p.feedAt gvk f).reschedule schedule).feed k.gvk).tracker =
      (p.feed k.gvk).tracker := feedAt_congr Feed.tracker tracker k.gvk
  obtain pending | rest := h
  · cases pending with
    | arriving item e there change about =>
        refine .inl (.arriving item e ?_ change about)
        by_cases here : k.gvk = gvk
        · subst here
          simp [arrivals, there]
        · rwa [reschedule_feed, feedAt_feed_of_ne here]
    | sending t q e pump kind state about => exact .inl (.sending t q e pump kind state about)
    | entered e there about => exact .inl (.entered e there about)
    | dirty there => exact .inl (.dirty there)
  · exact .inr (by rw [still]; exact rest)

theorem Step.gate (step : Step True p p') (closed : p.gate = .cancelled) :
    p'.gate = .cancelled := by
  cases step with
  | «open» | founder => simp [closed, SyncState.settle]
  | relinquish free => exact absurd trivial free
  | _ => exact closed

end Path

namespace Engine

open ResourceWatch.Path

variable {options : EngineOptions} {plan looked : WatchPlan} {past : Past Engine Command}
  {w : Engine} {k : ObjectKey}

/-- A pipeline is left to itself, and what is reported to its streams is what the
cluster interface reports: full lists that may be given up for another one, changes
outside of them, and objects with names and with namespaces or none. -/
def watcherConduct : Conduct Engine Command where
  apply w c := (w.apply c).1
  allows past c := c.leavesAlone && match c with
    | .arrive gvk (.report e) => e.fits (listingAfter false (arrived gvk past))
    | _ => true

/-- What an object was to be when its key was handed out last. -/
def lookedAt (k : ObjectKey) (past : Past Engine Command) : Option Object :=
  (beginnings k.encode past).getLast?.bind fun w => w.shop.cache.upcoming? k

theorem storeOf_path (w : Engine) (k : ObjectKey) :
    (w.path.storeOf k.gvk).upcoming? (.at k.ns k.name) = w.shop.cache.upcoming? k ∧
      (w.path.storeOf k.gvk).at? (.at k.ns k.name) = w.shop.cache.at? k := by
  simp only [storeOf, path_store, Cache.upcoming?, Cache.at?]
  cases w.shop.cache.store? k.gvk <;> exact ⟨rfl, rfl⟩

theorem watcherConduct_allows {gvk : Gvk} {a : Arrival}
    (allowed : watcherConduct.allows past (.arrive gvk a) = true) :
    inOrder (listingAfter false (arrived gvk past)) [a] = true := by
  simp only [watcherConduct, Bool.and_eq_true] at allowed
  cases a with
  | item => rfl
  | report e => simpa [inOrder] using allowed.2

/-- At every moment of such a pipeline whose streams get stores, unless the token has
fired or startup has failed, an object that a selector takes is fresh. -/
theorem fresh_of_run (run : watcherConduct.Run (ofPlan options plan) past w)
    (cached : options.cached = true) (plain : PlainName k.ns k.name)
    (selected : ∃ f ∈ plan.filterTable.filtersOf k.gvk, f.selector.selects k.ns k.name = true) :
    w.path.Working ∧ InStep k (arrived k.gvk past) w.path ∧
      (w.fired = false → w.gate ≠ .cancelled → w.path.Fresh k (lookedAt k past)) := by
  have all := (path_of_run True (P := fun past p =>
    p.Working ∧ p.Single ∧ p.table = plan.filterTable ∧ InStep k (arrived k.gvk past) p ∧
      (p.fired = false → p.gate ≠ .cancelled → p.Fresh k (lookedAt k past)))
    (fun _ _ => rfl) ?_ ?_ (fun _ => lone_ofPlan options plan) ?_ ?_ ?_ ?_ run).1
  · exact ⟨all.1, all.2.2.2⟩
  · intro past c allowed
    simp only [watcherConduct, Bool.and_eq_true] at allowed
    refine ⟨?_, fun _ => allowed.1⟩
    cases c <;> simp_all [Command.observes, Command.leavesAlone]
  · refine ⟨⟨WorkQueue.consistent_empty, by simp, by simp⟩, ⟨by simp, by simp⟩, rfl,
      ⟨Upkeep.empty _ _, rfl, rfl, cached, ?_⟩, fun _ _ => .inr (.inr rfl)⟩
    intro g taken
    simp [ofPlan, Provider.feed] at taken
  · intro past p p' h lone step
    obtain ⟨working, single, table, kept, fresh⟩ := h
    refine ⟨working.step step, single.step step, step.table.trans table,
      kept.step plain single step, ?_⟩
    intro unfired gate
    have open_before : p.gate ≠ .cancelled := fun closed => gate (step.gate closed)
    exact (fresh (step.unfired unfired) open_before).step (lone trivial) single kept plain
      (table ▸ selected) unfired open_before step
  · intro past w h all quiet silent
    simpa only [arrived_quiet silent, lookedAt, beginnings_quiet quiet] using all
  · intro past w t key p' h handed take
    obtain ⟨working, single, table, kept, fresh⟩ := h
    have same : arrived k.gvk (past ++ [(w, Happening.move t)]) = arrived k.gvk past :=
      arrived_quiet (by simp) k.gvk
    refine ⟨working.take take, single.take take, take.untouched.table.trans table,
      same ▸ kept.take take, ?_⟩
    intro unfired gate
    by_cases here : key = k.encode
    -- the look that begins now is the last one, and it sees the store as it is
    · have seen : lookedAt k (past ++ [(w, Happening.move t)]) = w.shop.cache.upcoming? k := by
        simp [lookedAt, beginnings_handed handed, here]
      cases take
      exact .inr (.inr ((storeOf_path w k).1.trans seen.symm))
    · have before : lookedAt k (past ++ [(w, Happening.move t)]) = lookedAt k past := by
        simp [lookedAt, beginnings_handed handed, here]
      rw [before]
      exact (fresh (take.untouched.fired.symm.trans unfired)
        fun closed => gate (take.untouched.gate.trans closed)).take working take here
  · intro past w c gvk h allowed comes inflow
    obtain ⟨working, single, table, kept, fresh⟩ := h
    obtain ⟨more, came, arrival, arrivals, tracker, taken, -⟩ := inflow_feed (w := w) past comes
    have looked : lookedAt k (past ++ [(w, Happening.command c)]) = lookedAt k past := by
      rw [lookedAt, beginnings_quiet (by simp), lookedAt]
    have ordered : inOrder (listingAfter false (arrived gvk past)) more = true := by
      obtain rfl | ⟨a, rfl, rfl⟩ := arrival
      · rfl
      · exact watcherConduct_allows allowed
    have in_step :
        InStep k (arrived k.gvk (past ++ [(w, Happening.command c)])) (w.apply c).1.path := by
      by_cases here : k.gvk = gvk
      · subst here
        exact came ▸ kept.inflow inflow arrivals tracker taken ordered
      · rw [arrived_command fun same => here (Option.some.inj (comes.symm.trans same)).symm]
        exact kept.elsewhere inflow taken here
    rw [looked]
    refine ⟨working.inflow inflow, single.inflow inflow taken, inflow.untouched.table.trans table,
      in_step, ?_⟩
    intro unfired gate
    have before := fresh (inflow.untouched.fired.symm.trans unfired)
      fun closed => gate (inflow.untouched.gate.trans closed)
    exact before.inflow inflow arrivals tracker

theorem conduct_of_watcherConduct (run : watcherConduct.Run (ofPlan options plan) past w) :
    conduct.Run (ofPlan options plan) past w := by
  refine Conduct.Run.mono (c := watcherConduct) (fun _ _ => rfl) ?_ run
  intro past c allowed
  simp only [watcherConduct, Bool.and_eq_true] at allowed
  cases c <;> simp_all [conduct, Command.observes, Command.leavesAlone]

/-- Nothing can move, nothing is on its way from the stream of a kind, no key waits
or is in flight, and no full list is open. -/
structure AtRest (gvk : Gvk) (w : Engine) : Prop where
  idle : Cooperative.Idle w
  arrivals : (w.provider.feed gvk).arrivals = []
  listing : (w.provider.feed gvk).tracker.listing = none
  buffer : w.channel.buffer = []
  queue : w.shop.queue.queue = []
  flight : w.shop.queue.inFlight = []

/-- In a pipeline at rest no change is on its way. -/
theorem AtRest.not_pending {arrived : Gvk → List Arrival} (rest : w.AtRest k.gvk)
    (forwards : w.path.Forwards options plan arrived) (working : w.path.Working) :
    ¬ w.path.Pending k := by
  have room : w.channel.buffer.length < Nat.max 1 options.capacity := by
    rw [rest.buffer]
    exact Nat.lt_of_lt_of_le Nat.one_pos (Nat.le_max_left ..)
  have waiting := waiting_of_idle forwards rest.idle room
  intro pending
  cases pending with
  | arriving item e there =>
      rw [path_feed, rest.arrivals] at there
      simp at there
  | sending t q e pump kind state =>
      obtain ended | ⟨-, -, ⟨listening, -⟩ | ⟨e', -, there⟩⟩ :=
        forwards.awake.rests t (by simp [idle_iff.1 rest.idle]) q pump
      · simp [state] at ended
      · simp [state] at listening
      · rw [path_channel, waiting] at there
        simp at there
  | entered e there =>
      rw [path_channel, rest.buffer] at there
      simp at there
  | dirty there =>
      have placed := working.consistent.placed _ there
      simp [rest.queue, rest.flight] at placed

/-- When no full list is open, objects will be what they are. -/
theorem upcoming?_of_listing (kept : InStep k (arrived k.gvk past) w.path)
    (closed : (w.provider.feed k.gvk).tracker.listing = none) :
    w.shop.cache.upcoming? k = w.shop.cache.at? k := by
  have unnamed : (w.path.storeOf k.gvk).named? (.at k.ns k.name) = none := by
    by_contra some_named
    obtain ⟨names, opened, -⟩ := kept.upkeep.named.1 (Option.isSome_iff_ne_none.2 some_named)
    rw [path_feed, closed] at opened
    simp at opened
  rw [← (storeOf_path w k).1, ← (storeOf_path w k).2, Store.upcoming?, unnamed]
  rfl

/-- Take a pipeline that is left to itself, with a store for every stream and
reconciles that look at the cache, and an object that a selector takes. When the
pipeline is at rest, an object in the cache has been reconciled. Its last reconcile
told what was to be seen when it began. The object is now what it was to be then,
going by the store and the full list that was open, if one was; without one it has
not changed. So the last answer is current exactly when what it was to be would have
been seen as well. -/
theorem last_answer_of_run (run : watcherConduct.Run (ofPlan options plan) past w)
    (cached : options.cached = true) (looks : (options.reconciler plan).plan? = some looked)
    (readable : k.Readable) (plain : PlainName k.ns k.name)
    (selected : ∃ f ∈ plan.filterTable.filtersOf k.gvk, f.selector.selects k.ns k.name = true)
    (synced : w.gate = .synced) (unfired : w.fired = false) (rest : w.AtRest k.gvk) :
    ((w.shop.cache.at? k).isSome = true → w.shop.history.answersTo k.encode ≠ []) ∧
    ∀ answer, (w.shop.history.answersTo k.encode).getLast? = some answer →
      ∃ w₁, (beginnings k.encode past).getLast? = some w₁ ∧
        answer = .ok (.of (w₁.shop.cache.get? k.gvk k.ns k.name)) ∧
        w.shop.cache.at? k = w₁.shop.cache.upcoming? k ∧
        ((w₁.provider.feed k.gvk).tracker.listing = none →
          w.shop.cache.at? k = w₁.shop.cache.at? k) ∧
        (answer = .ok (.of (w.shop.cache.get? k.gvk k.ns k.name)) ↔
          Observation.of (w₁.shop.cache.get? k.gvk k.ns k.name) =
            .of (w₁.shop.cache.upcoming? k <|> w.shop.cache.at? { k with ns := "" })) := by
  have free := conduct_of_watcherConduct run
  obtain ⟨working, kept, fresh⟩ := fresh_of_run run cached plain selected
  have answers := answersTo_of_run free looks k.encode rest.flight
  simp only [Cache.observe_encode _ _ readable] at answers
  have now : w.shop.cache.at? k = lookedAt k past := by
    obtain pending | ⟨names, opened, -⟩ | same := fresh unfired (by simp [synced])
    · exact absurd pending (rest.not_pending (forwards_of_run free) working)
    · rw [path_feed, rest.listing] at opened
      simp at opened
    · rw [← same, (storeOf_path w k).1, upcoming?_of_listing kept rest.listing]
  rw [answers]
  constructor
  · intro there none
    rw [now, lookedAt, List.map_eq_nil_iff.1 none] at there
    simp at there
  · intro answer last
    rw [List.getLast?_map, Option.map_eq_some_iff] at last
    obtain ⟨w₁, last, rfl⟩ := last
    rw [lookedAt, last, Option.bind_some] at now
    obtain ⟨before, t, later, split⟩ := exists_of_mem_beginnings (List.mem_of_getLast? last)
    have kept_then := (fresh_of_run (run.split split).1 cached plain selected).2.1
    refine ⟨w₁, last, rfl, now, ?_, ?_⟩
    · intro closed
      rw [now, upcoming?_of_listing kept_then closed]
    · rw [w.shop.cache.get?_eq, now, Except.ok.injEq]

/-- A full list names an object, and the object changes. -/
def upToDate : List (Happening Command) :=
  .command .run :: [0, 0, 1, 1, 2, 2, 3].map .move ++
  [.listBegin, .listed (namedObject "a" "1"), .listEnd].map
    (fun e => .command (.arrive configMap (.report e))) ++
  [3, 3, 3, 3, 3, 3, 1, 1, 2, 0, 0, 0, 4, 4, 4].map .move ++
  .command (.arrive configMap (.report (.applied (namedObject "a" "2")))) ::
  [3, 3, 3, 1, 1, 4, 4].map .move

/-- Afterwards another full list names the object in a later state, and ends only
after the object has been reconciled. -/
def relisted : List (Happening Command) :=
  upToDate ++
  [.listBegin, .listed (namedObject "a" "3")].map
    (fun e => .command (.arrive configMap (.report e))) ++
  [3, 3, 3, 3, 1, 1, 4, 4].map .move ++
  .command (.arrive configMap (.report .listEnd)) :: [3, 3].map .move

def changing : ObjectKey := ⟨configMap, "default", "a"⟩

instance (gvk : Gvk) (w : Engine) : Decidable (w.AtRest gvk) :=
  decidable_of_iff (w.shop.schedule.ready = [] ∧ (w.provider.feed gvk).arrivals.isEmpty = true ∧
      (w.provider.feed gvk).tracker.listing = none ∧ w.channel.buffer.isEmpty = true ∧
      w.shop.queue.queue = [] ∧ w.shop.queue.inFlight = [])
    ⟨fun ⟨a, b, c, d, e, f⟩ => ⟨a, by simpa using b, c, by simpa using d, e, f⟩,
      fun ⟨a, b, c, d, e, f⟩ => ⟨a, by simpa using b, c, by simpa using d, e, f⟩⟩

theorem last_answer_of_upToDate :
    ∃ past w w₁, watcherConduct.Run (ofPlan {} everyConfigMap) past w ∧ w.gate = .synced ∧
      w.fired = false ∧ w.AtRest configMap ∧ w.shop.history.answersTo changing.encode ≠ [] ∧
      (beginnings changing.encode past).getLast? = some w₁ ∧
      w.shop.cache.at? changing = w₁.shop.cache.upcoming? changing ∧
      (w.shop.history.answersTo changing.encode).getLast? =
        some (.ok (.of (w.shop.cache.get? configMap "default" "a"))) ∧
      Observation.of (w.shop.cache.get? configMap "default" "a") = .found none (some "2") := by
  let w₀ := ofPlan {} everyConfigMap
  have begun : watcherConduct.Run w₀ [] w₀ := .start
  have run := begun.follow upToDate (by decide +kernel)
  obtain ⟨synced, unfired, rest, there, last, found⟩ :
      let w := ((watcherConduct.follow [] w₀ upToDate).get (by decide +kernel)).2
      w.gate = .synced ∧ w.fired = false ∧ w.AtRest changing.gvk ∧
        (w.shop.cache.at? changing).isSome = true ∧
        (w.shop.history.answersTo changing.encode).getLast? =
          some (.ok (.of (w.shop.cache.get? configMap "default" "a"))) ∧
        Observation.of (w.shop.cache.get? configMap "default" "a") = .found none (some "2") := by
    decide +kernel
  have plain : PlainName changing.ns changing.name := ⟨by decide +kernel, .inr (by decide +kernel)⟩
  have fresh := last_answer_of_run run rfl rfl (by decide +kernel) plain (by decide +kernel) synced
    unfired rest
  obtain ⟨w₁, first, -, same, -, -⟩ := fresh.2 _ last
  exact ⟨_, _, w₁, run, synced, unfired, rest, fresh.1 there, first, same, last, found⟩

/-- The last reconcile of an object can stay stale: it told the state before the full
list, and is not followed by another one. -/
theorem last_answer_of_relisted :
    ∃ past w, watcherConduct.Run (ofPlan {} everyConfigMap) past w ∧ w.gate = .synced ∧
      w.fired = false ∧ w.AtRest configMap ∧
      (w.shop.history.answersTo changing.encode).getLast? = some (.ok (.found none (some "2"))) ∧
      Observation.of (w.shop.cache.get? configMap "default" "a") = .found none (some "3") := by
  let w₀ := ofPlan {} everyConfigMap
  have begun : watcherConduct.Run w₀ [] w₀ := .start
  have run := begun.follow relisted (by decide +kernel)
  obtain ⟨synced, unfired, rest, last, found⟩ :
      let w := ((watcherConduct.follow [] w₀ relisted).get (by decide +kernel)).2
      w.gate = .synced ∧ w.fired = false ∧ w.AtRest configMap ∧
        (w.shop.history.answersTo changing.encode).getLast? =
          some (.ok (.found none (some "2"))) ∧
        Observation.of (w.shop.cache.get? configMap "default" "a") = .found none (some "3") := by
    decide +kernel
  exact ⟨_, _, run, synced, unfired, rest, last, found⟩

end Engine

end ResourceWatch
