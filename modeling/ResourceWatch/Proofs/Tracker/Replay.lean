import Mathlib.Data.List.Nodup
import Mathlib.Logic.Function.Basic
import ResourceWatch.Proofs.Upkeep

/-!
# What a tracker tells is what it knows

Whoever follows the notifications of a tracker, and paints each of them into a picture
of the kind, sees in the picture what the tracker knows. This holds after every report,
whatever the reports are: full lists may be given up, or end without having begun, and
objects may be deleted that nobody knew of.

Every notification is true of the picture that it is painted into: an added object was
not in it, an updated one was, and an unseen deletion carries what the picture shows.
Of an object without a name nothing is known, and the one notification of it has no
reference.
-/

namespace ResourceWatch

/-- What is known of the objects of a kind, by their tracking texts. -/
abbrev Picture := String → Option Object

namespace Notification

/-- The tracking text of the object that a notification is about; an object without a
name has none. -/
def key? : Notification → Option String
  | .added o | .updated o | .deleted (.live o) => o.key?
  | .deleted (.unseen key _) => some key

/-- What is known of its object after a notification: the type words and the metadata,
without the payload and the record of field managers, or nothing after a deletion. -/
def leaves? : Notification → Option Object
  | .added o | .updated o => some ⟨o.types, { o.metadata with managers := 0 }, .null⟩
  | .deleted _ => none

/-- A picture with a notification painted into it. -/
def paint (n : Notification) (p : Picture) : Picture :=
  match n.key? with
  | some key => Function.update p key n.leaves?
  | none => p

/-- Whether a notification is true of the picture that it is painted into. -/
def IsTrueOf (p : Picture) : Notification → Prop
  | .added o => ∀ key, o.key? = some key → p key = none
  | .updated o => ∃ key known, o.key? = some key ∧ p key = some known
  | .deleted (.live _) => True
  | .deleted (.unseen key lastKnown) => ∃ known, p key = some known ∧ lastKnown = some known

end Notification

/-- The picture after the events of a stream. -/
def painted (p : Picture) : List StreamEvent → Picture
  | [] => p
  | .change n :: rest => painted (n.paint p) rest
  | .hydrated :: rest => painted p rest

/-- Whether every notification is true of the picture that it is painted into. -/
def AllTrue (p : Picture) : List StreamEvent → Prop
  | [] => True
  | .change n :: rest => n.IsTrueOf p ∧ AllTrue (n.paint p) rest
  | .hydrated :: rest => AllTrue p rest

def WatchEvent.object? : WatchEvent → Option Object
  | .listed o | .applied o | .deleted o => some o
  | .listBegin | .listEnd => none

/-- What a tracker makes of reports, one after the other. -/
def Tracker.tells (t : Tracker) : List WatchEvent → List StreamEvent
  | [] => []
  | e :: rest => (t.observe e).2 ++ (t.observe e).1.tells rest

section Pictures

variable {p : Picture} {n : Notification} {o : Object} {key : String} {events : List StreamEvent}

theorem paint_of_key?_eq_none (about : n.key? = none) : n.paint p = p := by
  simp only [Notification.paint, about]

theorem paint_apply_self (about : n.key? = some key) : n.paint p key = n.leaves? := by
  simp [Notification.paint, about]

theorem paint_apply_of_ne (other : n.key? ≠ some key) : n.paint p key = p key := by
  unfold Notification.paint
  cases about : n.key? with
  | none => rfl
  | some k =>
      have ne : key ≠ k := by
        rintro rfl
        exact other about
      exact Function.update_of_ne ne _ _

theorem painted_append (p : Picture) (a b : List StreamEvent) :
    painted p (a ++ b) = painted (painted p a) b := by
  induction a generalizing p with
  | nil => rfl
  | cons event a ih => cases event <;> exact ih _

theorem allTrue_append (p : Picture) (a b : List StreamEvent) :
    AllTrue p (a ++ b) ↔ AllTrue p a ∧ AllTrue (painted p a) b := by
  induction a generalizing p with
  | nil => simp [AllTrue, painted]
  | cons event a ih => cases event <;> simp [AllTrue, painted, ih, and_assoc]

/-- What is known of an object stays so or changes, until a deletion of it is told. -/
theorem painted_isSome (known : (p key).isSome = true)
    (kept : ∀ d, .change (.deleted d) ∈ events → (Notification.deleted d).key? ≠ some key) :
    (painted p events key).isSome = true := by
  induction events generalizing p with
  | nil => exact known
  | cons event events ih =>
      have later : ∀ d, .change (.deleted d) ∈ events →
          (Notification.deleted d).key? ≠ some key := fun d there =>
        kept d (List.mem_cons_of_mem _ there)
      cases event with
      | hydrated => exact ih known later
      | change n =>
          refine ih ?_ later
          by_cases about : n.key? = some key
          · rw [paint_apply_self about]
            cases n with
            | added | updated => rfl
            | deleted d => exact absurd about (kept d List.mem_cons_self)
          · rw [paint_apply_of_ne about]
            exact known

end Pictures

namespace Tracker

variable {t : Tracker} {o : Object} {key : String} {e : WatchEvent}

/-- Every object is known once, under its own tracking text. -/
structure Keyed (t : Tracker) : Prop where
  nodup : (t.known.map Prod.fst).Nodup
  own : ∀ entry ∈ t.known, entry.2.key? = some entry.1

theorem Keyed.empty : Keyed {} := ⟨List.nodup_nil, by simp⟩

theorem Keyed.filter (h : t.Keyed) (keep : String × Object → Bool) {t' : Tracker}
    (known : t'.known = t.known.filter keep) : t'.Keyed := by
  constructor
  · rw [known]
    exact h.nodup.sublist (List.filter_sublist.map _)
  · intro entry there
    rw [known] at there
    exact h.own entry (List.mem_of_mem_filter there)

theorem Keyed.remember (h : t.Keyed) (tracked : o.key? = some key) :
    (t.remember key o.remembered).Keyed := by
  have others : (t.forget key).Keyed := h.filter _ rfl
  constructor
  · show (key :: (t.forget key).known.map Prod.fst).Nodup
    refine List.nodup_cons.2 ⟨?_, others.nodup⟩
    simp [forget]
  · intro entry there
    obtain rfl | there := List.mem_cons.1 there
    · exact tracked
    · exact others.own entry there

theorem Keyed.find?_eq_some (h : t.Keyed) {entry : String × Object} (there : entry ∈ t.known) :
    t.find? entry.1 = some entry.2 := find?_eq_some_of_mem h.nodup there

/-- Every notification of a report is true, and with all of them painted in, the picture
shows what the tracker knows. -/
def Shows (t t' : Tracker) (events : List StreamEvent) : Prop :=
  AllTrue t.find? events ∧ painted t.find? events = t'.find?

theorem shows_apply (t : Tracker) (o : Object) :
    Shows t (t.apply o).1 [.change (t.apply o).2] := by
  rw [apply]
  split
  next unnamed =>
    refine ⟨⟨fun key named => absurd (unnamed.symm.trans named) (by simp), trivial⟩, ?_⟩
    exact paint_of_key?_eq_none unnamed
  next key tracked =>
    have remembers (n : Notification) (about : n.key? = some key)
        (leaves : n.leaves? = some o.remembered) :
        n.paint t.find? = (t.remember key o.remembered).find? := by
      funext k
      rw [find?_remember]
      by_cases here : k = key
      · rw [here, paint_apply_self about, if_pos rfl, leaves]
      · rw [if_neg here, paint_apply_of_ne]
        rw [about]
        exact fun same => here (Option.some.inj same).symm
    dsimp only
    split
    next known =>
      obtain ⟨before, known⟩ := Option.isSome_iff_exists.1 known
      exact ⟨⟨⟨key, before, tracked, known⟩, trivial⟩, remembers _ tracked rfl⟩
    next unknown =>
      refine ⟨⟨?_, trivial⟩, remembers _ tracked rfl⟩
      intro k same
      obtain rfl := Option.some.inj (tracked.symm.trans same)
      simpa using unknown

/-- Unseen deletions, each of an object that the picture shows, and none twice. -/
theorem painted_unseen {gone : List (String × Object)} {p : Picture}
    (nodup : (gone.map Prod.fst).Nodup) (shown : ∀ entry ∈ gone, p entry.1 = some entry.2) :
    let deletions := gone.map fun (key, o) => StreamEvent.change (.deleted (.unseen key (some o)))
    AllTrue p deletions ∧
      ∀ key, painted p deletions key = if key ∈ gone.map Prod.fst then none else p key := by
  induction gone generalizing p with
  | nil => exact ⟨trivial, fun key => by simp [painted]⟩
  | cons first gone ih =>
      obtain ⟨key, o⟩ := first
      rw [List.map_cons, List.nodup_cons] at nodup
      let p' := (Notification.deleted (.unseen key (some o))).paint p
      have others (k : String) (other : k ≠ key) : p' k = p k :=
        paint_apply_of_ne fun same => other (Option.some.inj same).symm
      have later : ∀ entry ∈ gone, p' entry.1 = some entry.2 := by
        intro entry there
        have other : entry.1 ≠ key := by
          intro same
          exact nodup.1 (List.mem_map.2 ⟨entry, there, same⟩)
        rw [others entry.1 other]
        exact shown entry (List.mem_cons_of_mem _ there)
      obtain ⟨truths, after⟩ := ih nodup.2 later
      refine ⟨⟨⟨o, shown _ List.mem_cons_self, rfl⟩, truths⟩, ?_⟩
      intro k
      refine (after k).trans ?_
      simp only [List.map_cons, List.mem_cons]
      by_cases here : k = key
      · subst here
        refine Eq.trans ?_ (if_pos (Or.inl rfl)).symm
        rw [ite_eq_left_iff]
        exact fun _ => paint_apply_self rfl
      · simp only [here, false_or, others k here]

/-- The tracking texts of the objects that the end of a full list finds missing. -/
theorem Keyed.missing (h : t.Keyed) : (t.missing.map Prod.fst).Nodup ∧
    (∀ entry ∈ t.missing, t.find? entry.1 = some entry.2) ∧
    ∀ key, key ∈ t.missing.map Prod.fst ↔
      (t.find? key).isSome = true ∧ key ∉ t.listing.getD [] := by
  have perm := List.mergeSort_perm
    (t.known.filter fun entry => !(t.listing.getD []).contains entry.1) fun a b => a.1 ≤ b.1
  have there (entry : String × Object) :
      entry ∈ t.missing ↔ entry ∈ t.known ∧ entry.1 ∉ t.listing.getD [] := by
    rw [Tracker.missing, perm.mem_iff, List.mem_filter]
    simp
  refine ⟨?_, ?_, ?_⟩
  · refine (perm.map Prod.fst).nodup_iff.2 ?_
    exact h.nodup.sublist (List.filter_sublist.map _)
  · exact fun entry gone => h.find?_eq_some ((there entry).1 gone).1
  · intro key
    constructor
    · intro named
      obtain ⟨entry, gone, rfl⟩ := List.mem_map.1 named
      obtain ⟨known, out⟩ := (there entry).1 gone
      exact ⟨by rw [h.find?_eq_some known]; rfl, out⟩
    · rintro ⟨known, out⟩
      rw [find?, Option.isSome_map, List.find?_isSome] at known
      obtain ⟨entry, known, same⟩ := known
      obtain rfl : entry.1 = key := by simpa using same
      exact List.mem_map.2 ⟨entry, (there entry).2 ⟨known, out⟩, rfl⟩

/-- The end of a full list. -/
theorem Keyed.shows_close (h : t.Keyed) : Shows t t.close.1 t.close.2 := by
  obtain ⟨nodup, shown, missing⟩ := h.missing
  obtain ⟨truths, after⟩ := painted_unseen nodup shown
  have mark (p : Picture) : AllTrue p (if t.hydrated then [] else [.hydrated]) ∧
      painted p (if t.hydrated then [] else [.hydrated]) = p := by
    split <;> exact ⟨trivial, rfl⟩
  constructor
  · exact (allTrue_append _ _ _).2 ⟨truths, (mark _).1⟩
  · refine (painted_append _ _ _).trans ((mark _).2.trans ?_)
    funext key
    rw [after, find?_close]
    by_cases gone : key ∈ t.missing.map Prod.fst
    · rw [if_pos gone, if_neg ((missing key).1 gone).2]
    · rw [if_neg gone]
      split
      next => rfl
      next out =>
        rw [missing, not_and] at gone
        simpa using mt gone (not_not.2 out)

/-- An object's state, when the full list may have been told of it just before. -/
theorem Keyed.shows_applied (h : t.Keyed) {t' : Tracker} (same : t'.known = t.known) (o : Object) :
    (t'.apply o).1.Keyed ∧ Shows t (t'.apply o).1 [.change (t'.apply o).2] := by
  have keyed : t'.Keyed := ⟨same ▸ h.nodup, same ▸ h.own⟩
  have found : t'.find? = t.find? := by
    funext key
    rw [find?, find?, same]
  refine ⟨?_, by simpa only [Shows, found] using shows_apply t' o⟩
  rw [apply]
  split
  next => exact keyed
  next key tracked => exact keyed.remember tracked

theorem Keyed.observe (h : t.Keyed) (e : WatchEvent) :
    (t.observe e).1.Keyed ∧ Shows t (t.observe e).1 (t.observe e).2 := by
  cases e with
  | listBegin => exact ⟨⟨h.nodup, h.own⟩, trivial, rfl⟩
  | applied o => exact h.shows_applied rfl o
  | listed o =>
      have mentioned : (o.key?.elim t t.mention).known = t.known := by cases o.key? <;> rfl
      exact h.shows_applied mentioned o
  | listEnd => exact ⟨h.filter _ rfl, h.shows_close⟩
  | deleted o =>
      cases tracked : o.key? with
      | none =>
          have same : (t.observe (.deleted o)).1 = t := by simp [Tracker.observe, tracked]
          refine ⟨same.symm ▸ h, ⟨trivial, trivial⟩, ?_⟩
          rw [same]
          exact paint_of_key?_eq_none tracked
      | some key =>
          have after : (t.observe (.deleted o)).1 = t.forget key := by
            simp [Tracker.observe, tracked]
          refine ⟨after.symm ▸ h.filter _ rfl, ⟨trivial, trivial⟩, ?_⟩
          funext k
          have about : (Notification.deleted (.live o)).key? = some key := tracked
          rw [after, find?_forget]
          by_cases here : k = key
          · rw [if_pos here, here]
            exact paint_apply_self about
          · rw [if_neg here]
            refine paint_apply_of_ne ?_
            rw [about]
            exact fun same => here (Option.some.inj same).symm

theorem tells_append (t : Tracker) (a b : List WatchEvent) :
    t.tells (a ++ b) = t.tells a ++ (t.observeAll a).tells b := by
  induction a generalizing t with
  | nil => rfl
  | cons e a ih =>
      show (t.observe e).2 ++ (t.observe e).1.tells (a ++ b) = _
      rw [ih, ← List.append_assoc]
      rfl

theorem Keyed.observeAll (h : t.Keyed) (events : List WatchEvent) :
    (t.observeAll events).Keyed ∧ Shows t (t.observeAll events) (t.tells events) := by
  induction events generalizing t with
  | nil => exact ⟨h, trivial, rfl⟩
  | cons e events ih =>
      obtain ⟨keyed, truths, shown⟩ := h.observe e
      obtain ⟨keyed', truths', shown'⟩ := ih keyed
      refine ⟨keyed', (allTrue_append _ _ _).2 ⟨truths, shown.symm ▸ truths'⟩, ?_⟩
      show painted t.find? ((t.observe e).2 ++ (t.observe e).1.tells events) = _
      rw [painted_append, shown]
      exact shown'

theorem observe_unnamed (t : Tracker) (about : e.object? = some o) (unnamed : o.name? = none) :
    ∃ n, t.observe e = (t, [.change n]) ∧ ∀ kind, n.reference kind = .error .nameless := by
  have untracked : o.key? = none := by simp [Object.key?, unnamed]
  have rejected (kind : Option Gvk) : Reference.ofObject? o kind = none := by
    simp [Reference.ofObject?, unnamed]
  cases e with
  | listBegin | listEnd => simp [WatchEvent.object?] at about
  | listed o' | applied o' =>
      obtain rfl := Option.some.inj about
      refine ⟨.added o', by simp [Tracker.observe, apply, untracked], fun kind => ?_⟩
      simp only [Notification.reference, rejected]
  | deleted o' =>
      obtain rfl := Option.some.inj about
      refine ⟨.deleted (.live o'), by simp [Tracker.observe, untracked], fun kind => ?_⟩
      simp only [Notification.reference, rejected]

end Tracker

/-- What a stream of events tells of a tracker, from a new one on. -/
structure Accounts (events : List StreamEvent) (t : Tracker) : Prop where
  /-- The picture shows what the tracker knows. -/
  shown : ∀ key, painted (fun _ => none) events key = t.find? key
  /-- The tracker knows no object twice, and each under its own tracking text. -/
  keyed : t.Keyed
  /-- Every notification is true of the picture of the events before it. -/
  truthful : ∀ before n after, events = before ++ .change n :: after →
    n.IsTrueOf (painted (fun _ => none) before)
  /-- Between two additions of an object a deletion of it is told. -/
  alternating : ∀ before o between o' after key,
    events = before ++ .change (.added o) :: between ++ .change (.added o') :: after →
      o.key? = some key → o'.key? = some key →
        ∃ d, .change (.deleted d) ∈ between ∧ (Notification.deleted d).key? = some key
  /-- A report about an object without a name changes nothing, and the one notification
  of it has no reference. -/
  unnamed : ∀ e o, e.object? = some o → o.name? = none →
    ∃ n, t.observe e = (t, [.change n]) ∧ ∀ kind, n.reference kind = .error .nameless

/-- Where every notification is true, an object is added again only after a deletion. -/
theorem AllTrue.deleted_between {p : Picture} {before between after : List StreamEvent}
    {o o' : Object} {key : String}
    (truths : AllTrue p (before ++ .change (.added o) :: between ++ .change (.added o') :: after))
    (tracked : o.key? = some key) (tracked' : o'.key? = some key) :
    ∃ d, .change (.deleted d) ∈ between ∧ (Notification.deleted d).key? = some key := by
  by_contra none_told
  have kept : ∀ d, .change (.deleted d) ∈ between →
      (Notification.deleted d).key? ≠ some key := fun d there about =>
    none_told ⟨d, there, about⟩
  let p' := (Notification.added o).paint (painted p before)
  rw [List.append_assoc, allTrue_append] at truths
  have truths' : AllTrue p' (between ++ .change (.added o') :: after) := truths.2.2
  have absent : painted p' between key = none :=
    ((allTrue_append p' between _).1 truths').2.1 key tracked'
  have about : (Notification.added o).key? = some key := tracked
  have added : (p' key).isSome = true := by
    rw [show p' key = _ from paint_apply_self about]
    rfl
  have there := painted_isSome added kept
  rw [absent] at there
  contradiction

/-- Whatever is reported to a new tracker, its notifications tell what it knows. -/
theorem accounts_of_reports (reports : List WatchEvent) :
    Accounts (Tracker.tells {} reports) (Tracker.observeAll {} reports) := by
  obtain ⟨keyed, truths, shown⟩ := Tracker.Keyed.empty.observeAll reports
  refine ⟨congrFun shown, keyed, ?_, ?_, fun e o => Tracker.observe_unnamed _⟩
  · intro before n after split
    rw [split, allTrue_append] at truths
    exact truths.2.1
  · intro before o between o' after key split tracked tracked'
    rw [split] at truths
    exact truths.deleted_between tracked tracked'

end ResourceWatch
