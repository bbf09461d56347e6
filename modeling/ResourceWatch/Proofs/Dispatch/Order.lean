import Mathlib.Data.List.Induction
import Mathlib.Data.List.TakeWhile
import ResourceWatch.Proofs.Dispatch.Calls

/-!
# The order of the calls

Calls that find the channel full stand in a line, and room that becomes free is given to the
first of them. What is given is kept for the call, but it does not hold up anybody else: a
receiver that takes two changes in a row makes room for the call that waits and may leave room
that nobody was promised, and a newcomer that takes this before the other has gone on comes in
first.

So changes enter the channel in the order in which their calls began exactly if no call comes
in while another one stands in front of it that is let in later. That is so whenever room is
used before more is made. Calls begin in the order in which they were made if tasks run in the
order in which they became ready. Both hold where commands are given one after the other, each
with all that it causes.
-/

namespace ResourceWatch

/-- The senders on their way into the channel, the one that began to wait first first. -/
def Channel.line (c : Channel) : List TaskId := c.granted ++ c.waiting

theorem Channel.receive?_line {c c' : Channel} {e : ChangeEvent} {woken : Option TaskId}
    (received : c.receive? = some (e, c', woken)) : c'.line = c.line := by
  obtain ⟨rest, buffer, granting⟩ := Path.receive?_eq_some.1 received
  rw [Channel.grant] at granting
  split at granting
  next none =>
    cases granting
    rfl
  next t rest' waits =>
    cases granting
    simp only at waits
    simp [line, waits]

namespace DispatchWorld

variable {w w' w₀ : DispatchWorld} {past : Past DispatchWorld Command} {table : FilterTable}
  {capacity : Nat} {t u : TaskId} {e : ChangeEvent} {h : Happening Command}

/-- Whether the receiver is there, as far as a past goes. -/
def Attended (past : Past DispatchWorld Command) : Prop :=
  ∀ w, (w, .command .drop) ∉ past

/-- Whether room that was given to a call is used before a change is received. -/
def Unhurried (past : Past DispatchWorld Command) : Prop :=
  ∀ w, (w, .command .receive) ∈ past → w.channel.granted = []

/-- Whether calls go on in the order in which they became ready. -/
def InTurn (past : Past DispatchWorld Command) : Prop :=
  ∀ w t, (w, .move t) ∈ past → w.schedule.ready.head? = some t

/-- Whether the receiver is still there after something has happened. -/
def keepsReceiver : DispatchWorld × Happening Command → Bool
  | (_, .command .drop) => false
  | _ => true

/-- Whether nobody who could go on was passed over. -/
def takesTurn : DispatchWorld × Happening Command → Bool
  | (w, .move t) => w.schedule.ready.head? == some t
  | _ => true

theorem attended_iff : Attended past ↔ past.all keepsReceiver = true := by
  rw [List.all_eq_true]
  constructor
  · intro attended (w, h) there
    cases h with
    | elapse | move => rfl
    | command c =>
        cases c with
        | drop => exact absurd there (attended w)
        | handle | receive | close | drain | look => rfl
  · exact fun stays w there => Bool.false_ne_true (stays _ there)

theorem inTurn_iff : InTurn past ↔ past.all takesTurn = true := by
  rw [List.all_eq_true]
  constructor
  · intro inTurn (w, h) there
    cases h with
    | elapse | command => rfl
    | move t => exact beq_iff_eq.2 (inTurn w t there)
  · exact fun turns w t there => beq_iff_eq.1 (turns _ there)

instance : Decidable (Attended past) := decidable_of_iff _ attended_iff.symm

instance : Decidable (InTurn past) := decidable_of_iff _ inTurn_iff.symm

/-- Whether a call reported that it passed its change on. -/
def passed (w : DispatchWorld) (t : TaskId) : Bool := w.tasks[t]? == some (.ended .forwarded)

/-- The calls whose changes entered the channel, in that order. -/
def admitted (past : Past DispatchWorld Command) : List TaskId := (entries past).map Prod.fst

/-- The calls that stand in front of a call. One that has no place in the line has all of the
line in front of it. -/
def ahead (w : DispatchWorld) (t : TaskId) : List TaskId := w.channel.line.takeWhile (· ≠ t)

/-- Whether the change of a call entered the channel while another call stood in front of it
that passed its change on as well. -/
def Overtakes (past : Past DispatchWorld Command) (w : DispatchWorld) (t u : TaskId) : Prop :=
  w.passed u = true ∧ ∃ before w₁ later, past = before ++ (w₁, .move t) :: later ∧
    enters w₁ (.move t) ≠ [] ∧ u ∈ w₁.ahead t

theorem passed_eq_true : w.passed t = true ↔ w.tasks[t]? = some (.ended .forwarded) := beq_iff_eq

@[simp] theorem admitted_append (past : Past DispatchWorld Command) (w : DispatchWorld)
    (h : Happening Command) :
    admitted (past ++ [(w, h)]) = admitted past ++ (enters w h).map Prod.fst := by
  simp [admitted]

theorem judge_ne_forwarded (table : FilterTable) (gvk : Gvk) (n : Notification) :
    (table.judge gvk n).1 ≠ .drop .forwarded := by
  rw [FilterTable.judge]
  split
  · simp
  · split
    · simp
    · split <;> simp

theorem Kept.mem_admitted (k : Kept table capacity past w) :
    t ∈ admitted past ↔ w.passed t = true := by
  rw [passed_eq_true, admitted, List.mem_map]
  constructor
  · rintro ⟨⟨u, e⟩, there, rfl⟩
    exact ((k.entered u e).1 there).1
  · intro ended
    cases k.stands t _ ended with
    | passed e change => exact ⟨(t, e), (k.entered t e).2 ⟨ended, change⟩, rfl⟩
    | dropped gvk n o call judged => exact absurd judged (judge_ne_forwarded table gvk n)

/-- Whoever comes in offers a change to a channel that is open. -/
theorem offers_of_enters (come : enters w (.move t) ≠ []) :
    ∃ e, enters w (.move t) = [(t, e)] ∧ w.Offers t e ∧ w.channel.closed = false := by
  have turn := turn_run w t
  generalize entered : enters w (.move t) = put at turn come ⊢
  cases turn with
  | enters e offers unclosed => exact ⟨e, rfl, offers, unclosed⟩
  | rests | drops | refused | waits | queues => exact absurd rfl come

theorem admitted_of_split {before later : Past DispatchWorld Command} {w₁ : DispatchWorld}
    (come : enters w₁ (.move t) ≠ []) : admitted (before ++ (w₁, .move t) :: later) =
      admitted before ++ t :: admitted later := by
  obtain ⟨e, enters, -⟩ := offers_of_enters come
  simp [admitted, entries, enters]

/-- A call that offers a change and has no place in the line has not begun before. -/
theorem Kept.begins_of_new (k : Kept table capacity past w) (offers : w.Offers t e)
    (unclosed : w.channel.closed = false) (new : t ∉ w.channel.line) :
    begins w (.move t) = [t] := by
  obtain task | ⟨gvk, n, task, -⟩ := offers
  · cases k.stands t _ task with
    | sending _ _ queued =>
        refine absurd ?_ new
        exact List.perm_append_comm.mem_iff.1 (queued unclosed)
  · exact begins_move task

section Line

variable {keeps : TaskId → Bool} {l : List TaskId}

/-- Where nobody counts who stands in front of a call, the call is the first of those who
do. -/
theorem filter_eq_cons_of_takeWhile (there : t ∈ l) (counts : keeps t = true)
    (front : ∀ u ∈ l.takeWhile (· ≠ t), keeps u = false) :
    l.filter keeps = t :: (l.erase t).filter keeps := by
  induction l with
  | nil => cases there
  | cons a l ih =>
      by_cases same : a = t
      · subst same
        rw [List.filter_cons_of_pos counts, List.erase_cons_head]
      · have first : (a :: l).takeWhile (· ≠ t) = a :: l.takeWhile (· ≠ t) := by simp [same]
        rw [first] at front
        have aside : ¬ keeps a = true := by simp [front a List.mem_cons_self]
        rw [List.erase_cons_tail (by simpa using same), List.filter_cons_of_neg aside,
          List.filter_cons_of_neg aside]
        exact ih ((List.mem_cons.1 there).resolve_left (Ne.symm same)) fun u later =>
          front u (List.mem_cons_of_mem _ later)

/-- The calls that count have entered the channel or stand in the line in the order in which
they began. -/
def InLine (keeps : TaskId → Bool) (past : Past DispatchWorld Command) (w : DispatchWorld) : Prop :=
  ((admitted past ++ w.channel.line).filter keeps).Sublist (begun past)

/-- Nobody comes in, and the line does not become longer. -/
theorem InLine.quiet (i : InLine keeps past w) (unentered : enters w h = [])
    (line : w'.channel.line.Sublist w.channel.line) : InLine keeps (past ++ [(w, h)]) w' := by
  rw [InLine, admitted_append, unentered, List.map_nil, List.append_nil, begun_append]
  exact (((line.append_left _).filter _).trans i).trans (List.sublist_append_left _ _)

/-- Somebody comes in, and nobody in front counts. -/
theorem InLine.comes (i : InLine keeps past w) (k : Kept table capacity past w)
    (offers : w.Offers t e) (unclosed : w.channel.closed = false)
    (enters : enters w (.move t) = [(t, e)]) (line : w'.channel.line = w.channel.line.erase t)
    (fair : keeps t = true → ∀ u ∈ w.ahead t, keeps u = false) :
    InLine keeps (past ++ [(w, Happening.move t)]) w' := by
  have same : admitted (past ++ [(w, Happening.move t)]) = admitted past ++ [t] := by
    simp [enters]
  have longer : (begun past).Sublist (begun (past ++ [(w, Happening.move t)])) := by simp
  rw [InLine, same, line, List.append_assoc, List.filter_append]
  rw [InLine, List.filter_append] at i
  cases counts : keeps t with
  | false =>
      refine (List.Sublist.append_left ?_ _).trans (i.trans longer)
      rw [List.singleton_append, List.filter_cons_of_neg (by simp [counts])]
      exact List.erase_sublist.filter _
  | true =>
      rw [List.singleton_append, List.filter_cons_of_pos counts]
      by_cases there : t ∈ w.channel.line
      · rw [← filter_eq_cons_of_takeWhile there counts (fair counts)]
        exact i.trans longer
      · have whole : w.ahead t = w.channel.line :=
          List.takeWhile_eq_self_iff.2 fun u waits => by
            simpa using fun same : u = t => there (same ▸ waits)
        have none : w.channel.line.filter keeps = [] :=
          List.filter_eq_nil_iff.2 fun u waits => by simp [fair counts u (whole ▸ waits)]
        have begins := k.begins_of_new offers unclosed there
        rw [none, List.append_nil] at i
        rw [List.erase_of_not_mem there, none, begun_append, begins]
        exact i.append (List.Sublist.refl [t])

theorem InLine.move (i : InLine keeps past w) (k : Kept table capacity past w) (t : TaskId)
    (fair : enters w (.move t) ≠ [] → keeps t = true → ∀ u ∈ w.ahead t, keeps u = false) :
    InLine keeps (past ++ [(w, Happening.move t)]) (Cooperative.run w t) := by
  have turn := turn_run w t
  generalize entered : enters w (.move t) = put at turn
  have still (none : enters w (.move t) = [])
      (channel : (Cooperative.run w t).channel = w.channel) :
      InLine keeps (past ++ [(w, Happening.move t)]) (Cooperative.run w t) :=
    i.quiet none (channel ▸ List.Sublist.refl _)
  cases turn with
  | rests fresh sending tasks channel => exact still entered channel
  | drops gvk n outcome task judged tasks channel => exact still entered channel
  | waits e offers unclosed there tasks channel => exact still entered channel
  | refused e offers closed tasks channel =>
      refine i.quiet entered ?_
      rw [channel]
      exact List.erase_sublist.append_right _
  | queues e offers unclosed new full tasks channel =>
      have begins := k.begins_of_new offers unclosed (by simp [Channel.line, new.1, new.2])
      have line : (Cooperative.run w t).channel.line = w.channel.line ++ [t] := by
        simp [Channel.line, channel]
      rw [InLine, admitted_append, entered, List.map_nil, List.append_nil, begun_append, begins,
        line, ← List.append_assoc, List.filter_append]
      exact i.append List.filter_sublist
  | enters e offers unclosed room tasks channel =>
      refine i.comes k offers unclosed entered ?_ (fair (by simp [entered]))
      obtain ⟨-, unqueued, -⟩ := k.sound.put room e
      rw [channel]
      by_cases given : t ∈ w.channel.granted
      · exact (List.erase_append_left _ given).symm
      · have new : t ∉ w.channel.line := by simp [Channel.line, given, unqueued]
        rw [List.erase_of_not_mem new]
        exact congrArg (· ++ _) (List.erase_of_not_mem given)

/-- If nobody comes in while somebody who counts stands in front, those who count come in in
the order in which they began. -/
theorem inLine_of_run (run : conduct.Run (start table capacity) past w)
    (fair : ∀ before w₁ t later, past = before ++ (w₁, .move t) :: later →
      enters w₁ (.move t) ≠ [] → keeps t = true → ∀ u ∈ w₁.ahead t, keeps u = false) :
    InLine keeps past w := by
  induction run with
  | start => exact .slnil
  | @next past w h run possible ih =>
      have i := ih fun before w₁ t later split =>
        fair before w₁ t (later ++ [(w, h)]) (by simp [split])
      cases h with
      | move t => exact i.move (kept_of_run run) t (fair past w t [] rfl)
      | elapse time => exact i.quiet rfl (.refl _)
      | command c =>
          cases c with
          | handle | drain | look => exact i.quiet rfl (.refl _)
          | drop | close => exact i.quiet rfl (List.Sublist.append_left (List.nil_sublist _) _)
          | receive =>
              refine i.quiet rfl ?_
              show w.receive.channel.line.Sublist _
              rw [receive]
              split
              next e channel woken received =>
                have same := Channel.receive?_line received
                cases woken <;> exact same ▸ List.Sublist.refl _
              next => exact .refl _

/-- The calls in the line stand there in the order in which they began. -/
theorem line_sublist (run : conduct.Run (start table capacity) past w) :
    w.channel.line.Sublist (begun past) := by
  have k := kept_of_run run
  let waits (t : TaskId) : Bool := decide (t ∈ w.channel.line)
  have i : InLine waits past w := inLine_of_run run fun before w₁ t later split enters stands => by
    obtain ⟨e, task⟩ := k.senders t (List.perm_append_comm.mem_iff.1 (of_decide_eq_true stands))
    have came : t ∈ admitted past := by simp [split, admitted_of_split enters]
    rw [k.mem_admitted, passed_eq_true, task] at came
    cases came
  have whole : w.channel.line.filter waits = w.channel.line :=
    List.filter_eq_self.2 fun t there => decide_eq_true there
  rw [InLine, List.filter_append, whole] at i
  exact (List.sublist_append_right _ _).trans i

end Line

section Order

/-- What stands in a list once, and in the order of another, is what the other one keeps. -/
theorem eq_filter_of_sublist {α : Type} {l keys : List α} {keeps : α → Bool}
    (line : l.Sublist keys) (nodup : keys.Nodup)
    (mem : ∀ a, a ∈ l ↔ a ∈ keys ∧ keeps a = true) : l = keys.filter keeps := by
  have short := line.filter keeps
  rw [List.filter_eq_self.2 fun a there => ((mem a).1 there).2] at short
  have perm : l.Perm (keys.filter keeps) :=
    (List.perm_ext_iff_of_nodup (nodup.sublist line) (nodup.filter _)).2 fun a => by
      rw [mem, List.mem_filter]
  exact short.eq_of_length perm.length_eq

/-- Nothing stands both in front of something and behind it. -/
theorem not_sublist_pair {α : Type} {l : List α} {a b : α} (nodup : l.Nodup)
    (there : [a, b].Sublist l) : ¬ [b, a].Sublist l := by
  induction l with
  | nil => cases there
  | cons c l ih =>
      obtain ⟨once, nodup⟩ := List.nodup_cons.1 nodup
      intro back
      cases there with
      | cons _ there =>
          cases back with
          | cons _ back => exact ih nodup there back
          | cons_cons _ back => exact once (there.subset (by simp))
      | cons_cons _ there =>
          cases back with
          | cons _ back => exact once (back.subset (by simp))
          | cons_cons _ back => exact once (there.subset (by simp))

/-- Whoever stands in front of a call that comes in has begun before it. -/
theorem begun_of_ahead {before later : Past DispatchWorld Command} {w₁ : DispatchWorld}
    (run : conduct.Run (start table capacity) past w)
    (split : past = before ++ (w₁, .move t) :: later) (come : enters w₁ (.move t) ≠ [])
    (stands : u ∈ w₁.ahead t) : [u, t].Sublist (begun past) := by
  obtain ⟨early, -⟩ := run.split split
  have parts : begun past = begun before ++ (begins w₁ (.move t) ++ begun later) := by
    simp [split, begun]
  rw [parts]
  by_cases there : t ∈ w₁.channel.line
  · have whole := List.takeWhile_append_dropWhile (p := (· ≠ t)) (l := w₁.channel.line)
    have behind : t ∈ w₁.channel.line.dropWhile (· ≠ t) := by
      rw [← whole, List.mem_append] at there
      exact there.resolve_left fun front => by simpa using List.mem_takeWhile_imp front
    have pair : [u, t].Sublist w₁.channel.line := by
      rw [← whole]
      exact (List.singleton_sublist.2 stands).append (List.singleton_sublist.2 behind)
    exact (pair.trans (line_sublist early)).trans (List.sublist_append_left _ _)
  · obtain ⟨e, -, offers, unclosed⟩ := offers_of_enters come
    have begins := (kept_of_run early).begins_of_new offers unclosed there
    have first : u ∈ begun before :=
      (line_sublist early).subset (List.takeWhile_subset _ stands)
    rw [begins]
    exact (List.singleton_sublist.2 first).append (by simp)

/-- Changes enter the channel in the order in which their calls began exactly if no call
overtakes another. -/
theorem admitted_eq_iff (run : conduct.Run (start table capacity) past w) :
    admitted past = (begun past).filter w.passed ↔ ∀ t u, ¬ Overtakes past w t u := by
  have k := kept_of_run run
  constructor
  · rintro same t u ⟨passed, before, w₁, later, split, come, stands⟩
    have first := begun_of_ahead run split come stands
    obtain ⟨early, -⟩ := run.split split
    have waits : u ∈ w₁.channel.line := List.takeWhile_subset _ stands
    have late : u ∉ admitted before := by
      obtain ⟨e, task⟩ := (kept_of_run early).senders u (List.perm_append_comm.mem_iff.1 waits)
      rw [(kept_of_run early).mem_admitted, passed_eq_true, task]
      simp
    have other : u ≠ t := by simpa using List.mem_takeWhile_imp stands
    have came := k.mem_admitted.2 passed
    rw [split, admitted_of_split come, List.mem_append, List.mem_cons] at came
    have after : u ∈ admitted later := (came.resolve_left late).resolve_left other
    have second : [t, u].Sublist (admitted past) := by
      rw [split, admitted_of_split come]
      exact ((List.singleton_sublist.2 after).cons_cons t).trans (List.sublist_append_right _ _)
    rw [same] at second
    exact not_sublist_pair k.nodup first (second.trans List.filter_sublist)
  · intro fair
    have i : InLine w.passed past w :=
      inLine_of_run run fun before w₁ t later split come _ u stands =>
        Bool.eq_false_iff.2 fun passed =>
          fair t u ⟨passed, before, w₁, later, split, come, stands⟩
    refine eq_filter_of_sublist ?_ k.nodup fun t => ?_
    · rw [InLine, List.filter_append] at i
      rw [← List.filter_eq_self.2 fun t there => k.mem_admitted.1 there]
      exact (List.sublist_append_left _ _).trans i
    · rw [k.mem_admitted, k.began, passed_eq_true]
      refine (and_iff_right_of_imp fun passed => ?_).symm
      exact ⟨_, passed, rfl⟩

/-- At most one call has room that it has not used, and while one has, the channel has no
other room. -/
structure Tight (w : DispatchWorld) : Prop where
  single : w.channel.granted.length ≤ 1
  full : w.channel.closed = false → w.channel.granted ≠ [] →
    w.channel.capacity ≤ w.channel.buffer.length + w.channel.granted.length

/-- Then nobody stands in front of a call that comes in. -/
theorem Tight.unopposed (i : Tight w) (sound : w.channel.Sound)
    (unclosed : w.channel.closed = false)
    (room : t ∈ w.channel.granted ∨ t ∉ w.channel.waiting ∧ 0 < w.channel.room) :
    w.ahead t = [] ∧ w.channel.granted.erase t = [] := by
  obtain given | ⟨-, room⟩ := room
  · have only : w.channel.granted = [t] := by
      have := i.single
      have := List.length_pos_of_mem given
      obtain ⟨u, alone⟩ := List.length_eq_one_iff.1
        (show w.channel.granted.length = 1 by omega)
      rw [alone, List.mem_singleton] at given
      rw [alone, given]
    simp [ahead, Channel.line, only]
  · rw [Channel.room] at room
    have waiting : w.channel.waiting = [] := by
      by_contra waits
      have := sound.full waits
      omega
    have granted : w.channel.granted = [] := by
      by_contra promised
      have := i.full unclosed promised
      omega
    simp [ahead, Channel.line, waiting, granted]

theorem Tight.move (i : Tight w) (sound : w.channel.Sound) (t : TaskId) :
    Tight (Cooperative.run w t) := by
  have turn := turn_run w t
  generalize enters w (.move t) = put at turn
  cases turn with
  | rests _ _ _ channel | drops _ _ _ _ _ _ channel | waits _ _ _ _ _ channel =>
      exact ⟨channel ▸ i.single, channel ▸ i.full⟩
  | queues _ _ _ _ _ _ channel => exact ⟨channel ▸ i.single, channel ▸ i.full⟩
  | refused e offers closed tasks channel =>
      rw [← Bool.not_eq_false] at closed
      exact ⟨channel ▸ Nat.le_trans List.length_erase_le i.single,
        channel ▸ fun unclosed => absurd unclosed closed⟩
  | enters e offers unclosed room tasks channel =>
      have emptied : (Cooperative.run w t).channel.granted = [] := by
        rw [channel]
        exact (i.unopposed sound unclosed room).2
      exact ⟨by simp [emptied], fun _ promised => absurd emptied promised⟩

/-- A change is received while nobody has room that was not used yet. -/
theorem Tight.receive (sound : w.channel.Sound) (unhurried : w.channel.granted = []) :
    Tight w.receive := by
  have still : Tight w := ⟨by simp [unhurried], fun _ promised => absurd unhurried promised⟩
  rw [DispatchWorld.receive]
  split
  next e channel woken received =>
    obtain ⟨rest, buffer, granting⟩ := Path.receive?_eq_some.1 received
    have tight (w' : DispatchWorld) (there : w'.channel = channel) : Tight w' := by
      rw [Channel.grant] at granting
      split at granting
      next none =>
        cases granting
        constructor
        all_goals rw [there]
        · exact still.single
        · exact fun _ promised => absurd unhurried promised
      next u waiting waits =>
        cases granting
        simp only at waits
        have full := sound.full (by simp [waits])
        rw [buffer, unhurried] at full
        constructor
        all_goals rw [there]
        · simp [unhurried]
        · exact fun _ _ => by simpa [unhurried] using full
    cases woken with
    | none => exact tight _ rfl
    | some u => exact tight _ rfl
  next => exact still

theorem tight_of_run (run : conduct.Run (start table capacity) past w)
    (unhurried : Unhurried past) : Tight w := by
  induction run with
  | start => exact ⟨by simp [DispatchWorld.start], by simp [DispatchWorld.start]⟩
  | @next past w h run possible ih =>
      have i := ih fun v there => unhurried v (List.mem_append_left _ there)
      have sound := (kept_of_run run).sound
      cases h with
      | move t => exact i.move sound t
      | elapse time => exact ⟨i.single, i.full⟩
      | command c =>
          cases c with
          | handle | drain | look => exact ⟨i.single, i.full⟩
          | drop | close => exact ⟨i.single, fun unclosed => by cases unclosed⟩
          | receive => exact .receive sound (unhurried w (by simp))

/-- Nobody overtakes where room is used before a change is received. -/
theorem not_overtakes_of_unhurried (run : conduct.Run (start table capacity) past w)
    (unhurried : Unhurried past) (t u : TaskId) : ¬ Overtakes past w t u := by
  rintro ⟨-, before, w₁, later, split, come, stands⟩
  obtain ⟨early, -⟩ := run.split split
  have tight := tight_of_run early fun v there => unhurried v (by simp [split, there])
  have turn := turn_run w₁ t
  generalize enters w₁ (.move t) = put at turn come
  cases turn with
  | enters e offers unclosed room =>
      rw [(tight.unopposed (kept_of_run early).sound unclosed room).1] at stands
      cases stands
  | rests | drops | refused | waits | queues => exact come rfl

/-- The calls that have not begun, in the order in which they can. -/
def unbegun (w : DispatchWorld) : List TaskId :=
  w.schedule.ready.filter fun u => w.tasks[u]?.any Call.isFresh

/-- Calls begin by their numbers: those that have begun come first, and the others are ready
one after the other. -/
structure Numbered (past : Past DispatchWorld Command) (w : DispatchWorld) : Prop where
  line : begun past ++ unbegun w = List.range w.tasks.length
  known : ∀ u ∈ w.schedule.ready, u < w.tasks.length
  nodup : w.schedule.ready.Nodup
  timers : w.schedule.timers = []

theorem Numbered.move (o : Numbered past w) (first : w.schedule.ready.head? = some t) :
    Numbered (past ++ [(w, Happening.move t)]) (Cooperative.run w t) := by
  obtain ⟨-, -, schedule⟩ := run_frame w t
  obtain ⟨length, others, begun'⟩ := run_tasks w t
  obtain ⟨rest, ready⟩ := List.head?_eq_some_iff.1 first
  have ready' : (Cooperative.run w t).schedule.ready = rest := by
    rw [schedule, Schedule.rest, ready, List.erase_cons_head]
  have line := o.line
  rw [unbegun, ready] at line
  have once : t ∉ rest ∧ rest.Nodup := List.nodup_cons.1 (ready ▸ o.nodup)
  refine ⟨?_, ?_, ready'.symm ▸ once.2, schedule ▸ o.timers⟩
  · rw [begun_append, unbegun, ready', length, ← line, List.append_assoc]
    congr 1
    rw [begins]
    cases fresh : w.tasks[t]?.any Call.isFresh with
    | false =>
        rw [List.filter_cons_of_neg (by simp [fresh])]
        refine List.filter_congr fun u later => ?_
        by_cases here : u = t
        · rw [here, begun', fresh]
        · rw [others u here]
    | true =>
        have cons : (t :: rest).filter (fun u => w.tasks[u]?.any Call.isFresh) =
            t :: rest.filter fun u => w.tasks[u]?.any Call.isFresh :=
          List.filter_cons_of_pos fresh
        rw [cons]
        refine congrArg (t :: ·) (List.filter_congr fun u later => ?_)
        rw [others u fun here => once.1 (here ▸ later)]
  · rw [ready', length]
    exact fun u later => o.known u (ready ▸ List.mem_cons_of_mem _ later)

theorem Numbered.handle (o : Numbered past w) (gvk : Gvk) (n : Notification) :
    Numbered (past ++ [(w, Happening.command (Command.handle gvk n))])
      (w.apply (.handle gvk n)) := by
  have new : w.tasks.length ∉ w.schedule.ready := fun there =>
    Nat.lt_irrefl _ (o.known _ there)
  have ready : (w.schedule.wake w.tasks.length).ready = w.schedule.ready ++ [w.tasks.length] := by
    rw [Schedule.wake, if_neg new]
  refine ⟨?_, ?_, Schedule.nodup_wake o.nodup, ?_⟩
  · let fresh (u : TaskId) : Bool := (w.tasks ++ [.fresh gvk n])[u]?.any Call.isFresh
    have old : w.schedule.ready.filter fresh = unbegun w := by
      refine List.filter_congr fun u there => ?_
      exact congrArg (Option.any Call.isFresh) (List.getElem?_append_left (o.known u there))
    have last : [w.tasks.length].filter fresh = [w.tasks.length] := by
      simp [fresh, Call.isFresh]
    have more : unbegun (w.apply (.handle gvk n)) = unbegun w ++ [w.tasks.length] := by
      show (w.schedule.wake w.tasks.length).ready.filter fresh = _
      rw [ready, List.filter_append, old, last]
    have none : begins w (.command (.handle gvk n)) = [] := rfl
    show _ = List.range (w.tasks ++ [_]).length
    rw [begun_append, none, List.append_nil, more, ← List.append_assoc, o.line,
      List.length_append, List.length_singleton, List.range_succ]
  · intro u there
    show u < (w.tasks ++ [_]).length
    rw [List.length_append, List.length_singleton]
    obtain there | rfl := Schedule.mem_wake.1 there
    · exact Nat.lt_succ_of_lt (o.known u there)
    · exact Nat.lt_succ_self _
  · exact (Schedule.wake_timers _ _).trans o.timers

/-- Calls that have begun are woken, and none begins. -/
theorem Numbered.wakes (o : Numbered past w) (ts : List TaskId) (none : begins w h = [])
    (old : ∀ u ∈ ts, u < w.tasks.length ∧ w.tasks[u]?.any Call.isFresh = false)
    (tasks : w'.tasks = w.tasks) (schedule : w'.schedule = w.schedule.wakeAll ts) :
    Numbered (past ++ [(w, h)]) w' := by
  refine ⟨?_, ?_, schedule ▸ Schedule.nodup_wakeAll o.nodup, ?_⟩
  · rw [begun_append, none, List.append_nil, unbegun, tasks, schedule,
      Schedule.filter_wakeAll fun u there => (old u there).2]
    exact o.line
  · rw [schedule, tasks]
    intro u there
    obtain there | there := Schedule.mem_wakeAll.1 there
    · exact o.known u there
    · exact (old u there).1
  · rw [schedule, Schedule.wakeAll_timers]
    exact o.timers

theorem Numbered.elapse (o : Numbered past w) (time : Nat) :
    Numbered (past ++ [(w, Happening.elapse time)])
      { w with schedule := w.schedule.elapse time } := by
  have same : w.schedule.elapse time = { w.schedule with now := time } := by
    simp [Schedule.elapse, o.timers, Schedule.wakeAll]
  have line : begun (past ++ [(w, Happening.elapse time)]) = begun past := by
    rw [begun_append]
    exact List.append_nil _
  rw [same]
  exact ⟨line.symm ▸ o.line, o.known, o.nodup, o.timers⟩

theorem Kept.waiter (k : Kept table capacity past w) (waits : u ∈ w.channel.waiting) :
    u < w.tasks.length ∧ w.tasks[u]?.any Call.isFresh = false := by
  obtain ⟨e, task⟩ := k.senders u (List.mem_append_left _ waits)
  exact ⟨(List.getElem?_eq_some_iff.1 task).1, by rw [task]; rfl⟩

theorem Numbered.receive (o : Numbered past w) (k : Kept table capacity past w) :
    Numbered (past ++ [(w, Happening.command Command.receive)]) w.receive := by
  rw [DispatchWorld.receive]
  split
  next e channel woken received =>
    obtain ⟨rest, buffer, granting⟩ := Path.receive?_eq_some.1 received
    cases woken with
    | none => exact o.wakes [] rfl (by simp) rfl rfl
    | some u =>
        refine o.wakes [u] rfl (fun v there => ?_) rfl rfl
        rw [List.mem_singleton.1 there]
        refine k.waiter ?_
        rw [Channel.grant] at granting
        split at granting
        next => cases granting
        next v ts waits =>
          cases granting
          simp only at waits
          simp [waits]
  next => exact o.wakes [] rfl (by simp) rfl rfl

theorem numbered_of_run (run : conduct.Run (start table capacity) past w)
    (inTurn : InTurn past) : Numbered past w := by
  induction run with
  | start => exact ⟨rfl, by simp [DispatchWorld.start], .nil, rfl⟩
  | @next past w h run possible ih =>
      have o := ih fun v u there => inTurn v u (List.mem_append_left _ there)
      have k := kept_of_run run
      cases h with
      | move t => exact o.move (inTurn w t (by simp))
      | elapse time => exact o.elapse time
      | command c =>
          cases c with
          | handle gvk n => exact o.handle gvk n
          | drain | look => exact o.wakes [] rfl (by simp) rfl rfl
          | drop | close => exact o.wakes w.channel.waiting rfl (fun _ => k.waiter) rfl rfl
          | receive => exact o.receive k

end Order

section Performing

/-- Whether calls go on in their turn and room is used before more is made. -/
def Steady (past : Past DispatchWorld Command) : Prop := InTurn past ∧ Unhurried past

theorem Steady.next (s : Steady past)
    (first : ∀ t, h = .move t → w.schedule.ready.head? = some t)
    (unused : h = .command .receive → w.channel.granted = []) : Steady (past ++ [(w, h)]) := by
  constructor
  · intro v t there
    obtain there | last := List.mem_append.1 there
    · exact s.1 v t there
    · cases List.mem_singleton.1 last
      exact first t rfl
  · intro v there
    obtain there | last := List.mem_append.1 there
    · exact s.2 v there
    · cases List.mem_singleton.1 last
      exact unused rfl

theorem Attended.append {more : Past DispatchWorld Command} (first : Attended past)
    (second : Attended more) : Attended (past ++ more) := fun w there =>
  (List.mem_append.1 there).elim (first w) (second w)

/-- A steady run that has come to rest. -/
structure Rests (w₀ : DispatchWorld) (past : Past DispatchWorld Command) (w : DispatchWorld) :
    Prop where
  run : conduct.Run w₀ past w
  steady : Steady past
  idle : Cooperative.Idle w

/-- Every move brings a dispatcher nearer to rest. -/
theorem rests_settleWith (run : conduct.Run w₀ past w) (steady : Steady past) (fuel : Nat)
    (enough : w.schedule.ready.length ≤ fuel) :
    ∃ more, Rests w₀ (past ++ more) (Cooperative.settleWith fuel w) ∧ Attended more ∧
      (Cooperative.settleWith fuel w).tasks.length = w.tasks.length := by
  induction fuel generalizing past w with
  | zero =>
      refine ⟨[], ⟨?_, ?_, List.eq_nil_of_length_eq_zero (Nat.le_zero.1 enough)⟩,
        by simp [Attended], rfl⟩ <;> rwa [List.append_nil]
  | succ fuel ih =>
      rw [Cooperative.settleWith]
      split
      next none =>
        refine ⟨[], ⟨?_, ?_, none⟩, by simp [Attended], rfl⟩ <;> rwa [List.append_nil]
      next t rest ready =>
        have ready : w.schedule.ready = t :: rest := ready
        have possible : conduct.Possible past w (.move t) := by
          show t ∈ w.schedule.ready
          simp [ready]
        have shorter : (Cooperative.run w t).schedule.ready.length ≤ fuel := by
          rw [(run_frame w t).2.2, Schedule.rest, ready, List.erase_cons_head]
          rw [ready, List.length_cons] at enough
          exact Nat.le_of_succ_le_succ enough
        obtain ⟨more, rests, attended, length⟩ :=
          ih (run.next possible) (steady.next (by simp [ready]) fun other => by cases other) shorter
        refine ⟨(w, .move t) :: more, ?_, ?_, length.trans (run_tasks w t).1⟩
        · rw [List.append_cons]
          exact rests
        · have first : Attended [(w, Happening.move t)] := by simp [Attended]
          exact first.append attended

theorem receive_tasks (w : DispatchWorld) : w.receive.tasks = w.tasks := by
  rw [receive]
  split
  next e channel woken received => cases woken <;> rfl
  next => rfl

/-- A command and all that it causes. -/
theorem Rests.settle (r : Rests (start table capacity) past w) (c : Command)
    (few : (w.apply c).tasks.length ≤ Cooperative.patience) :
    ∃ more, Rests (start table capacity) (past ++ more) (Cooperative.settle (w.apply c)) ∧
      (c ≠ .drop → Attended more) ∧
      (Cooperative.settle (w.apply c)).tasks.length = (w.apply c).tasks.length := by
  have k := kept_of_run r.run
  have unused : w.channel.granted = [] := by
    refine List.eq_nil_iff_forall_not_mem.2 fun u given => ?_
    have ready := k.granted u given
    rw [show w.schedule.ready = [] from r.idle] at ready
    cases ready
  have steady : Steady (past ++ [(w, Happening.command c)]) :=
    r.steady.next (fun _ other => by cases other) fun _ => unused
  have run : conduct.Run (start table capacity) (past ++ [(w, Happening.command c)]) (w.apply c) :=
    r.run.next rfl
  have o := numbered_of_run run steady.1
  have ready : (w.apply c).schedule.ready.length ≤ (w.apply c).tasks.length := by
    have among : (w.apply c).schedule.ready ⊆ List.range (w.apply c).tasks.length :=
      fun u there => List.mem_range.2 (o.known u there)
    simpa using o.nodup.length_le_of_subset among
  obtain ⟨more, rests, attended, same⟩ :=
    rests_settleWith run steady Cooperative.patience (Nat.le_trans ready few)
  refine ⟨[(w, Happening.command c)] ++ more, by rwa [← List.append_assoc], fun other => ?_, same⟩
  have first : Attended [(w, Happening.command c)] := by simpa [Attended] using other.symm
  exact first.append attended

theorem Rests.drain (r : Rests (start table capacity) past w)
    (few : w.tasks.length ≤ Cooperative.patience) (fuel : Nat) :
    ∃ more, Rests (start table capacity) (past ++ more) (drain fuel w) ∧ Attended more ∧
      (drain fuel w).tasks.length = w.tasks.length := by
  induction fuel generalizing past w with
  | zero => exact ⟨[], (List.append_nil past).symm ▸ r, by simp [Attended], rfl⟩
  | succ fuel ih =>
      rw [DispatchWorld.drain]
      split
      · exact ⟨[], (List.append_nil past).symm ▸ r, by simp [Attended], rfl⟩
      · have length : (w.apply .receive).tasks.length = w.tasks.length :=
          congrArg List.length (receive_tasks w)
        obtain ⟨more, settled, attended, same⟩ := r.settle .receive (length ▸ few)
        have total := same.trans length
        obtain ⟨rest, drained, attended', same'⟩ := ih settled (total ▸ few)
        refine ⟨more ++ rest, ?_, (attended (by simp)).append attended', same'.trans total⟩
        rw [← List.append_assoc]
        exact drained

theorem Rests.perform (r : Rests (start table capacity) past w) (c : Command)
    (few : w.tasks.length < Cooperative.patience) :
    ∃ more, Rests (start table capacity) (past ++ more) (w.perform c) ∧
      (c ≠ .drop → Attended more) ∧ (w.perform c).tasks.length ≤ w.tasks.length + 1 := by
  have settled (c : Command) (length : (w.apply c).tasks.length ≤ w.tasks.length + 1) :
      ∃ more, Rests (start table capacity) (past ++ more) (Cooperative.settle (w.apply c)) ∧
        (c ≠ .drop → Attended more) ∧
        (Cooperative.settle (w.apply c)).tasks.length ≤ w.tasks.length + 1 := by
    obtain ⟨more, rests, attended, same⟩ := r.settle c (Nat.le_trans length few)
    exact ⟨more, rests, attended, Nat.le_trans (Nat.le_of_eq same) length⟩
  cases c with
  | handle gvk n => exact settled (.handle gvk n) (by simp [apply])
  | receive =>
      have same : (w.apply .receive).tasks.length = w.tasks.length :=
        congrArg List.length (receive_tasks w)
      exact settled .receive (by omega)
  | drop => exact settled .drop (Nat.le_succ _)
  | close => exact settled .close (Nat.le_succ _)
  | look => exact ⟨[], (List.append_nil past).symm ▸ r, by simp [Attended], Nat.le_succ _⟩
  | drain =>
      obtain ⟨more, drained, attended, same⟩ := r.drain (Nat.le_of_lt few)
        (w.channel.buffer.length + w.tasks.length + 1)
      exact ⟨more, drained, fun _ => attended, Nat.le_succ_of_le (Nat.le_of_eq same)⟩

/-- Commands that are given one after the other, each with all that it causes before the next
one, make a run in which calls go on in their turn and room is used at once. -/
theorem rests_performs (commands : List Command) (few : commands.length ≤ Cooperative.patience) :
    ∃ past, Rests (start table capacity) past (commands.foldl perform (start table capacity)) ∧
      (.drop ∉ commands → Attended past) := by
  have counted : ∃ past,
      Rests (start table capacity) past (commands.foldl perform (start table capacity)) ∧
        (.drop ∉ commands → Attended past) ∧
        (commands.foldl perform (start table capacity)).tasks.length ≤ commands.length := by
    induction commands using List.reverseRecOn with
    | nil =>
        exact ⟨[], ⟨.start, ⟨by simp [InTurn], by simp [Unhurried]⟩, rfl⟩, by simp [Attended],
          Nat.le_refl 0⟩
    | append_singleton commands c ih =>
        rw [List.length_append, List.length_singleton] at few
        obtain ⟨past, rests, attended, length⟩ := ih (by omega)
        obtain ⟨more, rests', attended', length'⟩ := rests.perform c (by omega)
        rw [List.foldl_append, List.length_append, List.length_singleton]
        refine ⟨past ++ more, rests', fun undropped => ?_,
          Nat.le_trans length' (Nat.succ_le_succ length)⟩
        rw [List.mem_append, not_or, List.mem_singleton] at undropped
        exact (attended undropped.1).append (attended' (Ne.symm undropped.2))
  obtain ⟨past, rests, attended, -⟩ := counted
  exact ⟨past, rests, attended⟩

end Performing

end DispatchWorld

end ResourceWatch
