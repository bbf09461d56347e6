import Mathlib.Data.List.Nodup
import ResourceWatch.Cache

/-!
# What the store and the tracker of a kind make of a report

A report changes the store of its kind and goes through the tracker of the kind.
Reports come in the order in which the cluster interface makes them: a full list
names its objects before it ends, and objects change one by one only outside of it.

The store and the tracker then know of the same objects, an open full list apart.
Whatever a report changes about what an object will be, it is announced, either at
once or, if the object may be missing from the open full list, at its end.
-/

namespace ResourceWatch

/-- Whether a text may be a name or a namespace: it has no slash. -/
def isPlainText (s : String) : Bool := !s.isEmpty && !s.toList.contains '/'

/-- Whether an object has a name, and a namespace or none. -/
def Object.isPlain (o : Object) : Bool :=
  o.metadata.name.any isPlainText && o.metadata.ns.all isPlainText

namespace WatchEvent

/-- Whether a report comes in order, while a full list is open or none is. -/
def fits (listing : Bool) : WatchEvent → Bool
  | .listBegin => true
  | .listed o => listing && o.isPlain
  | .listEnd => listing
  | .applied o | .deleted o => !listing && o.isPlain

/-- Whether a full list is open after a report. -/
def opens (listing : Bool) : WatchEvent → Bool
  | .listBegin => true
  | .listEnd => false
  | _ => listing

end WatchEvent

/-- The place of the object with a name in a namespace, which is empty for objects
of the whole cluster. -/
def StoreKey.at (ns name : String) : StoreKey := ⟨if ns.isEmpty then none else some ns, name⟩

namespace Store

/-- The object at a place as the open full list has named it. -/
def named? (s : Store) (key : StoreKey) : Option Object :=
  (s.gathered.find? (·.1 == key)).map (·.2)

/-- The object at a place as it will be if the open full list, if there is one, says
no more about it. -/
def upcoming? (s : Store) (key : StoreKey) : Option Object := s.named? key <|> s.at? key

end Store

/-- Whether the tracker knows an object that the open full list has not named yet. -/
def Tracker.awaits (t : Tracker) (key : String) : Prop :=
  ∃ names, t.listing = some names ∧ key ∉ names ∧ (t.find? key).isSome

/-- Whether an object has a name and stands in a namespace, which is empty for objects
of the whole cluster. -/
def Object.Is (o : Object) (ns name : String) : Prop := o.nsText = ns ∧ o.name? = some name

/-- A name, and a namespace or none. -/
structure PlainName (ns name : String) : Prop where
  name : isPlainText name = true
  ns : ns = "" ∨ isPlainText ns = true

theorem isPlainText_iff {s : String} : isPlainText s = true ↔ s ≠ "" ∧ '/' ∉ s.toList := by
  simp [isPlainText]

theorem PlainName.noSlash {ns name : String} (plain : PlainName ns name) :
    '/' ∉ ns.toList ∧ '/' ∉ name.toList := by
  refine ⟨?_, (isPlainText_iff.1 plain.name).2⟩
  obtain rfl | h := plain.ns
  · simp
  · exact (isPlainText_iff.1 h).2

/-- Objects of different names or namespaces are tracked under different texts. -/
theorem joinedName_inj {ns name ns' name' : String} (plain : PlainName ns name)
    (plain' : PlainName ns' name') :
    joinedName ns name = joinedName ns' name' ↔ ns = ns' ∧ name = name' := by
  refine ⟨?_, by rintro ⟨rfl, rfl⟩; rfl⟩
  intro same
  have text (ns name : String) :
      (ns ++ "/" ++ name).toList = ns.toList ++ '/' :: name.toList := by
    simp
  unfold joinedName at same
  split at same <;> split at same
  · rename_i empty empty'
    rw [String.isEmpty_iff] at empty empty'
    exact ⟨empty.trans empty'.symm, same⟩
  · exact absurd (same ▸ plain.noSlash.2) (by simp)
  · exact absurd (same ▸ plain'.noSlash.2) (by simp)
  · have chars := congrArg String.toList same
    rw [text, text, List.append_cons_inj_of_notMem plain.noSlash.1 plain.noSlash.2] at chars
    exact ⟨String.toList_inj.1 chars.1, String.toList_inj.1 chars.2.2⟩

namespace Object

variable {o : Object} {ns name : String}

/-- A plain object has a name and a namespace or none, and stands at their place. -/
theorem exists_of_isPlain (plain : o.isPlain = true) :
    ∃ ns name, PlainName ns name ∧ o.Is ns name ∧ StoreKey.of o = StoreKey.at ns name ∧
      o.key? = some (joinedName ns name) := by
  simp only [isPlain, Bool.and_eq_true] at plain
  obtain ⟨has, ns⟩ := plain
  cases named : o.metadata.name with
  | none => simp [named] at has
  | some name =>
      have good : isPlainText name = true := by simpa [named] using has
      have full := (isPlainText_iff.1 good).1
      have known : o.name? = some name := by
        simp [name?, named, Option.filter, full]
      refine ⟨o.nsText, name, ⟨good, ?_⟩, ⟨rfl, known⟩, ?_, by simp [key?, known]⟩
      · cases space : o.metadata.ns with
        | none => exact .inl (by simp [nsText, space])
        | some s => exact .inr (by simpa [nsText, space] using ns)
      · cases space : o.metadata.ns with
        | none => simp [StoreKey.of, StoreKey.at, nsText, space, named]
        | some s =>
            have good_space : isPlainText s = true := by simpa [space] using ns
            have full_space := (isPlainText_iff.1 good_space).1
            simp [StoreKey.of, StoreKey.at, nsText, space, named, String.isEmpty_iff, full_space]

/-- The place of an object tells its name and namespace. -/
theorem of_eq_at (plain : o.isPlain = true) :
    StoreKey.of o = StoreKey.at ns name ↔ o.Is ns name := by
  obtain ⟨ns', name', -, ⟨space, known⟩, place, -⟩ := exists_of_isPlain plain
  rw [place, Is, space, known]
  simp only [StoreKey.at, StoreKey.mk.injEq, Option.some.injEq]
  refine and_congr_left ?_
  intro _
  by_cases empty : ns' = "" <;> by_cases empty' : ns = "" <;>
    simp [empty, empty', Ne.symm]

/-- So does the text under which it is tracked. -/
theorem key?_eq_joinedName (plain : o.isPlain = true) (good : PlainName ns name) :
    o.key? = some (joinedName ns name) ↔ o.Is ns name := by
  obtain ⟨ns', name', plain', ⟨space, known⟩, -, tracked⟩ := exists_of_isPlain plain
  rw [tracked, Option.some.injEq, joinedName_inj plain' good, Is, space, known, Option.some.injEq]

@[simp] theorem remembered_is : o.remembered.Is ns name ↔ o.Is ns name := Iff.rfl

end Object

section Entries

variable {κ α : Type} [DecidableEq κ] (entries : List (κ × α)) (k key : κ)

/-- What is taken out under a key is gone, and nothing else changes. -/
theorem find?_removed :
    ((entries.filter (·.1 != k)).find? (·.1 == key)).map (·.2) =
      if key = k then none else (entries.find? (·.1 == key)).map (·.2) := by
  rw [List.find?_filter]
  by_cases here : key = k
  · rw [List.find?_eq_none.2 (by simp [here]), if_pos here]
    rfl
  · rw [if_neg here]
    congr 2
    funext entry
    by_cases wanted : entry.1 = key <;> simp [wanted, here]

/-- What is put under a key is found there, and nothing else changes. -/
theorem find?_replaced (a : α) :
    (((k, a) :: entries.filter (·.1 != k)).find? (·.1 == key)).map (·.2) =
      if key = k then some a else (entries.find? (·.1 == key)).map (·.2) := by
  by_cases here : key = k
  · simp [here]
  · rw [List.find?_cons_of_neg (by simpa using Ne.symm here), find?_removed]
    simp only [if_neg here]

/-- What stands under a key that no other entry has is found there. -/
theorem find?_eq_some_of_mem {entries : List (κ × α)} {k : κ} {a : α}
    (nodup : (entries.map Prod.fst).Nodup) (there : (k, a) ∈ entries) :
    (entries.find? (·.1 == k)).map (·.2) = some a := by
  obtain ⟨found, first⟩ : ∃ found, entries.find? (·.1 == k) = some found :=
    Option.isSome_iff_exists.1 (List.find?_isSome.2 ⟨_, there, by simp⟩)
  have same : found.1 = k := by simpa using List.find?_some first
  have only : found = (k, a) :=
    List.inj_on_of_nodup_map nodup (List.mem_of_find?_eq_some first) there same
  rw [first, only]
  rfl

end Entries

namespace Store

variable {s : Store} {o : Object} {key : StoreKey}

/-- What a report does to the objects that are to be found. -/
theorem at?_apply (e : WatchEvent) (key : StoreKey) :
    (s.apply e).at? key = match e with
      | .listBegin | .listed _ => s.at? key
      | .listEnd => s.named? key
      | .applied o => if key = StoreKey.of o then some o else s.at? key
      | .deleted o => if key = StoreKey.of o then none else s.at? key := by
  cases e with
  | listBegin | listed | listEnd => rfl
  | applied o => exact find?_replaced _ _ _ _
  | deleted o => exact find?_removed _ _ _

/-- What a report does to what the open full list has named. -/
theorem named?_apply (e : WatchEvent) (key : StoreKey) :
    (s.apply e).named? key = match e with
      | .listBegin | .listEnd => none
      | .listed o => if key = StoreKey.of o then some o else s.named? key
      | .applied _ | .deleted _ => s.named? key := by
  cases e with
  | listBegin | listEnd | applied | deleted => rfl
  | listed o => exact find?_replaced _ _ _ _

end Store

namespace Tracker

variable {t : Tracker} {o : Object} {key : String}

@[simp] theorem remember_listing (t : Tracker) (key : String) (o : Object) :
    (t.remember key o).listing = t.listing := rfl

@[simp] theorem forget_listing (t : Tracker) (key : String) :
    (t.forget key).listing = t.listing := rfl

theorem find?_remember (t : Tracker) (k key : String) (o : Object) :
    (t.remember k o).find? key = if key = k then some o else t.find? key :=
  find?_replaced _ _ _ _

theorem find?_forget (t : Tracker) (k key : String) :
    (t.forget k).find? key = if key = k then none else t.find? key :=
  find?_removed _ _ _

/-- Taking in a named object remembers it, and announces it. -/
theorem apply_of_key (t : Tracker) {k : String} (tracked : o.key? = some k) :
    (t.apply o).1 = t.remember k o.remembered ∧ (t.apply o).2.object? = some o := by
  rw [apply]
  rw [tracked]
  refine ⟨rfl, ?_⟩
  dsimp only
  split <;> rfl

theorem observe_listed (t : Tracker) {k : String} (tracked : o.key? = some k) :
    (t.observe (.listed o)).1 = (t.mention k).remember k o.remembered := by
  simp only [observe, tracked, Option.elim_some]
  exact (apply_of_key _ tracked).1

theorem observe_applied (t : Tracker) {k : String} (tracked : o.key? = some k) :
    (t.observe (.applied o)).1 = t.remember k o.remembered := (t.apply_of_key tracked).1

theorem observe_deleted (t : Tracker) {k : String} (tracked : o.key? = some k) :
    (t.observe (.deleted o)).1 = t.forget k := by
  simp [observe, tracked]

/-- What the full list did not name is forgotten at its end. -/
theorem find?_close (t : Tracker) (key : String) :
    t.close.1.find? key = if key ∈ t.listing.getD [] then t.find? key else none := by
  have gone (entry : String × Object) (there : entry ∈ t.known) :
      (!(t.missing.map (·.1)).contains entry.1) = (t.listing.getD []).contains entry.1 := by
    rw [Bool.eq_iff_iff]
    simp only [missing, Bool.not_eq_true', List.contains_eq_mem, decide_eq_false_iff_not,
      List.mem_map, List.mem_mergeSort, List.mem_filter, decide_eq_true_eq]
    constructor
    · intro none
      by_contra out
      exact none ⟨entry, ⟨there, by simpa using out⟩, rfl⟩
    · rintro named ⟨other, ⟨-, out⟩, same⟩
      simp [same, named] at out
  have kept : t.close.1.known = t.known.filter fun e => (t.listing.getD []).contains e.1 :=
    List.filter_congr gone
  rw [find?]
  rw [kept, List.find?_filter]
  by_cases here : key ∈ t.listing.getD []
  · rw [if_pos here]
    congr 2
    funext entry
    by_cases wanted : entry.1 = key <;> simp [wanted, here]
  · rw [List.find?_eq_none.2 ?_, if_neg here]
    · rfl
    · rintro entry - wanted
      simp only [List.contains_eq_mem, decide_eq_true_eq, beq_iff_eq] at wanted
      exact here (wanted.2 ▸ wanted.1)

/-- What the full list did not name is announced as deleted at its end. -/
theorem announced_of_missing {known : Object} (there : t.find? key = some known)
    (out : key ∉ t.listing.getD []) :
    .change (.deleted (.unseen key (some known))) ∈ t.close.2 := by
  obtain ⟨entry, found, rfl⟩ := Option.map_eq_some_iff.1 there
  have same : entry.1 = key := by simpa using List.find?_some found
  have missing : entry ∈ t.missing := by
    refine List.mem_mergeSort.2 (List.mem_filter.2 ⟨List.mem_of_find?_eq_some found, ?_⟩)
    simpa [same] using out
  refine List.mem_append_left _ (List.mem_map.2 ⟨entry, missing, ?_⟩)
  simp [same]

end Tracker

/-- The store and the tracker of a kind know of the same objects, as seen from one
object. What the open full list has named so far is on its way to the store. -/
structure Upkeep (ns name : String) (s : Store) (t : Tracker) : Prop where
  found : (s.at? (.at ns name)).isSome → (t.find? (joinedName ns name)).isSome
  named : (s.named? (.at ns name)).isSome ↔
    ∃ names, t.listing = some names ∧ joinedName ns name ∈ names
  known : ∀ names, t.listing = some names → joinedName ns name ∈ names →
    (t.find? (joinedName ns name)).isSome
  settled : t.listing = none → (t.find? (joinedName ns name)).isSome →
    (s.at? (.at ns name)).isSome
  entry : ∀ o, t.find? (joinedName ns name) = some o → o.Is ns name

namespace Upkeep

variable {ns name : String} {s : Store} {t : Tracker} {e : WatchEvent}

theorem empty (ns name : String) : Upkeep ns name {} {} := by
  constructor <;> simp [Store.at?, Store.named?, Tracker.find?]

/-- Whether an event of a stream is a change of an object. -/
def Announces (ns name : String) (events : List StreamEvent) : Prop :=
  ∃ n, .change n ∈ events ∧ ∃ o, n.object? = some o ∧ o.Is ns name

/-- What a report about another object does not touch. -/
theorem elsewhere {o : Object} (plain : o.isPlain = true) (good : PlainName ns name)
    (other : ¬ o.Is ns name) :
    ∃ k, o.key? = some k ∧ joinedName ns name ≠ k ∧ StoreKey.at ns name ≠ StoreKey.of o := by
  obtain ⟨ns', name', -, -, -, tracked⟩ := Object.exists_of_isPlain plain
  refine ⟨_, tracked, fun same => other ?_, fun same => other ?_⟩
  · exact (Object.key?_eq_joinedName plain good).1 (tracked.trans (congrArg some same.symm))
  · exact (Object.of_eq_at plain).1 same.symm

theorem mention_listing (t : Tracker) (k τ : String) :
    (∃ names, (t.mention k).listing = some names ∧ τ ∈ names) ↔
      ∃ names, t.listing = some names ∧ (τ = k ∨ τ ∈ names) := by
  rw [Tracker.mention]
  cases t.listing with
  | none => simp
  | some names =>
      by_cases there : k ∈ names
      · simp only [Option.map_some, Option.some.injEq, exists_eq_left', List.contains_eq_mem, there,
          decide_true, if_true]
        exact ⟨.inr, fun h => h.elim (fun same => same ▸ there) id⟩
      · simp [there, or_comm]

variable {o : Object}

/-- The object itself is named by the open full list. -/
theorem listed (own : o.Is ns name) (tracked : o.key? = some (joinedName ns name))
    (place : StoreKey.of o = .at ns name) (listing : t.listing.isSome = true) :
    Upkeep ns name (s.apply (.listed o)) (t.observe (.listed o)).1 := by
  have seen := t.observe_listed tracked
  have there : (t.observe (.listed o)).1.find? (joinedName ns name) = some o.remembered := by
    rw [seen, Tracker.find?_remember, if_pos rfl]
  obtain ⟨names, opened⟩ := Option.isSome_iff_exists.1 listing
  refine ⟨fun _ => by simp [there], ?_, fun _ _ _ => by simp [there], ?_, ?_⟩
  · rw [seen, Store.named?_apply]
    simp only [place, if_true, Option.isSome_some, true_iff, Tracker.remember_listing]
    exact (mention_listing t _ _).2 ⟨names, opened, .inl rfl⟩
  · intro ends
    rw [seen] at ends
    simp [Tracker.mention, opened] at ends
  · rw [there]
    rintro _ ⟨⟩
    exact own

/-- The object itself is added or changed. -/
theorem applied (h : Upkeep ns name s t) (own : o.Is ns name)
    (tracked : o.key? = some (joinedName ns name)) (place : StoreKey.of o = .at ns name) :
    Upkeep ns name (s.apply (.applied o)) (t.observe (.applied o)).1 := by
  have seen := t.observe_applied tracked
  have there : (t.observe (.applied o)).1.find? (joinedName ns name) = some o.remembered := by
    rw [seen, Tracker.find?_remember, if_pos rfl]
  refine ⟨fun _ => by simp [there], ?_, fun _ _ _ => by simp [there], ?_, ?_⟩
  · rw [seen, Store.named?_apply]
    exact h.named
  · intro _ _
    simp [Store.at?_apply, place]
  · rw [there]
    rintro _ ⟨⟩
    exact own

/-- The object itself is deleted. -/
theorem deleted (h : Upkeep ns name s t) (tracked : o.key? = some (joinedName ns name))
    (place : StoreKey.of o = .at ns name) (listing : t.listing = none) :
    Upkeep ns name (s.apply (.deleted o)) (t.observe (.deleted o)).1 := by
  have seen := t.observe_deleted tracked
  have gone : (t.observe (.deleted o)).1.find? (joinedName ns name) = none := by
    rw [seen, Tracker.find?_forget, if_pos rfl]
  refine ⟨?_, ?_, ?_, ?_, ?_⟩
  · intro found
    simp [Store.at?_apply, place] at found
  · rw [seen, Store.named?_apply]
    exact h.named
  · intro names opened
    rw [seen] at opened
    exact absurd (listing.symm.trans opened) (by simp)
  · intro _ known
    simp [gone] at known
  · simp [gone]

/-- The full list ends. -/
theorem listEnd (h : Upkeep ns name s t) (listing : t.listing.isSome = true) :
    Upkeep ns name (s.apply .listEnd) (t.observe .listEnd).1 := by
  obtain ⟨names, opened⟩ := Option.isSome_iff_exists.1 listing
  have left : (t.observe .listEnd).1.find? (joinedName ns name) =
      if joinedName ns name ∈ names then t.find? (joinedName ns name) else none := by
    have closed := t.find?_close (joinedName ns name)
    rw [opened] at closed
    exact closed
  have known (there : (s.named? (.at ns name)).isSome) : joinedName ns name ∈ names := by
    obtain ⟨_, same, named⟩ := h.named.1 there
    exact (Option.some.inj (opened.symm.trans same)) ▸ named
  refine ⟨?_, ?_, fun _ absurd => by simp [Tracker.observe, Tracker.close] at absurd,
    ?_, ?_⟩
  · intro found
    rw [Store.at?_apply] at found
    rw [left, if_pos (known found)]
    exact h.known names opened (known found)
  · simp [Store.named?_apply, Tracker.observe, Tracker.close]
  · intro _ still
    rw [left] at still
    split at still
    · rename_i named
      rw [Store.at?_apply]
      exact h.named.2 ⟨names, opened, named⟩
    · simp at still
  · intro o still
    rw [left] at still
    split at still
    · exact h.entry o still
    · simp at still

/-- Nothing changes for the object. -/
theorem same (h : Upkeep ns name s t) {s' : Store} {t' : Tracker}
    (objects : s'.at? (.at ns name) = s.at? (.at ns name))
    (gathered : s'.named? (.at ns name) = s.named? (.at ns name))
    (known : t'.find? (joinedName ns name) = t.find? (joinedName ns name))
    (ends : t'.listing = none ↔ t.listing = none)
    (listing : (∃ names, t'.listing = some names ∧ joinedName ns name ∈ names) ↔
      ∃ names, t.listing = some names ∧ joinedName ns name ∈ names) : Upkeep ns name s' t' := by
  refine ⟨?_, ?_, ?_, ?_, ?_⟩
  · rw [objects, known]
    exact h.found
  · rw [gathered, listing]
    exact h.named
  · intro names opened there
    obtain ⟨names, opened, there⟩ := listing.1 ⟨names, opened, there⟩
    rw [known]
    exact h.known names opened there
  · intro closed
    rw [objects, known]
    exact h.settled (ends.1 closed)
  · rw [known]
    exact h.entry

/-- A report about another object leaves the object as it is. -/
theorem other (h : Upkeep ns name s t) {k : String} (tracked : o.key? = some k)
    (text : joinedName ns name ≠ k) (place : StoreKey.at ns name ≠ StoreKey.of o)
    (about : e = .listed o ∨ e = .applied o ∨ e = .deleted o) :
    Upkeep ns name (s.apply e) (t.observe e).1 ∧
      (s.apply e).upcoming? (.at ns name) = s.upcoming? (.at ns name) ∧
      (t.awaits (joinedName ns name) → (t.observe e).1.awaits (joinedName ns name)) := by
  have objects : (s.apply e).at? (.at ns name) = s.at? (.at ns name) := by
    obtain rfl | rfl | rfl := about <;> simp [Store.at?_apply, place]
  have gathered : (s.apply e).named? (.at ns name) = s.named? (.at ns name) := by
    obtain rfl | rfl | rfl := about <;> simp [Store.named?_apply, place]
  have known : (t.observe e).1.find? (joinedName ns name) = t.find? (joinedName ns name) := by
    obtain rfl | rfl | rfl := about
    · rw [t.observe_listed tracked, Tracker.find?_remember, if_neg text]
      rfl
    · rw [t.observe_applied tracked, Tracker.find?_remember, if_neg text]
    · rw [t.observe_deleted tracked, Tracker.find?_forget, if_neg text]
  have listing : (t.observe e).1.listing = t.listing ∨
      (t.observe e).1.listing = (t.mention k).listing := by
    obtain rfl | rfl | rfl := about
    · simp [t.observe_listed tracked]
    · simp [t.observe_applied tracked]
    · simp [t.observe_deleted tracked]
  have ends : (t.observe e).1.listing = none ↔ t.listing = none := by
    obtain same | same := listing <;> simp [same, Tracker.mention]
  have named : (∃ names, (t.observe e).1.listing = some names ∧ joinedName ns name ∈ names) ↔
      ∃ names, t.listing = some names ∧ joinedName ns name ∈ names := by
    obtain same | same := listing
    · rw [same]
    · rw [same, mention_listing]
      simp [text]
  refine ⟨h.same objects gathered known ends named, ?_, ?_⟩
  · rw [Store.upcoming?, gathered, objects, Store.upcoming?]
  · rintro ⟨names, opened, out, there⟩
    obtain ⟨names', opened'⟩ := Option.ne_none_iff_exists'.1
      fun none => absurd (opened.symm.trans (ends.1 none)) (by simp)
    refine ⟨names', opened', ?_, known ▸ there⟩
    intro there'
    obtain ⟨_, same, member⟩ := named.1 ⟨names', opened', there'⟩
    exact out ((Option.some.inj (opened.symm.trans same)) ▸ member)

/-- Of an object that is not known, nothing is to be found or on its way. -/
theorem unknown (h : Upkeep ns name s t) (unknown : t.find? (joinedName ns name) = none) :
    s.at? (.at ns name) = none ∧ s.named? (.at ns name) = none := by
  constructor
  · by_contra some_found
    have found := h.found (Option.isSome_iff_ne_none.2 some_found)
    simp [unknown] at found
  · by_contra some_named
    obtain ⟨names, opened, there⟩ := h.named.1 (Option.isSome_iff_ne_none.2 some_named)
    have known := h.known names opened there
    simp [unknown] at known

/-- A report keeps the store and the tracker in step. Either it announces a change of
the object; or the object is known, and the open full list has not named it; or what
the object will be stays as it is. -/
theorem observe (h : Upkeep ns name s t) (good : PlainName ns name)
    (fits : e.fits t.listing.isSome = true) :
    Upkeep ns name (s.apply e) (t.observe e).1 ∧
      ∀ o, t.awaits (joinedName ns name) ∨ s.upcoming? (.at ns name) = o →
        Announces ns name (t.observe e).2 ∨ (t.observe e).1.awaits (joinedName ns name) ∨
          (s.apply e).upcoming? (.at ns name) = o := by
  have apart {o : Object} (plain : o.isPlain = true) (other : ¬ o.Is ns name)
      (about : e = .listed o ∨ e = .applied o ∨ e = .deleted o) :
      Upkeep ns name (s.apply e) (t.observe e).1 ∧
        ∀ o, t.awaits (joinedName ns name) ∨ s.upcoming? (.at ns name) = o →
          Announces ns name (t.observe e).2 ∨ (t.observe e).1.awaits (joinedName ns name) ∨
            (s.apply e).upcoming? (.at ns name) = o := by
    obtain ⟨k, tracked, text, place⟩ := elsewhere plain good other
    obtain ⟨keeps, same, awaits⟩ := h.other tracked text place about
    exact ⟨keeps, fun v before => .inr (before.imp awaits fun was => same.trans was)⟩
  cases e with
  | listBegin =>
      refine ⟨⟨h.found, ?_, ?_, fun absurd => by simp [Tracker.observe] at absurd, h.entry⟩,
        fun v before => .inr ?_⟩
      · simp [Store.named?_apply, Tracker.observe]
      · simp [Tracker.observe]
      · -- a known object is awaited from now on; of an unknown one nothing was to be
        cases known : t.find? (joinedName ns name) with
        | some o => exact .inl ⟨[], rfl, by simp, Option.isSome_iff_exists.2 ⟨o, known⟩⟩
        | none =>
            obtain ⟨objects, gathered⟩ := h.unknown known
            refine .inr ?_
            rw [Store.upcoming?, Store.named?_apply, Store.at?_apply, objects]
            obtain ⟨_, -, -, there⟩ | rfl := before
            · simp [known] at there
            · simp [Store.upcoming?, gathered, objects]
  | listEnd =>
      refine ⟨h.listEnd fits, ?_⟩
      intro v before
      obtain ⟨names, opened⟩ := Option.isSome_iff_exists.1 fits
      have missing (o : Object) (known : t.find? (joinedName ns name) = some o)
          (out : joinedName ns name ∉ names) : Announces ns name (t.observe .listEnd).2 :=
        ⟨_, t.announced_of_missing known (by simpa [opened] using out), o, rfl, h.entry o known⟩
      obtain ⟨names', same, out, there⟩ | rfl := before
      · obtain rfl : names = names' := Option.some.inj (opened.symm.trans same)
        obtain ⟨o, known⟩ := Option.isSome_iff_exists.1 there
        exact .inl (missing o known out)
      · -- the store becomes what the list has named, so what was named stays
        by_cases named : joinedName ns name ∈ names
        · obtain ⟨o, gathered⟩ := Option.isSome_iff_exists.1 (h.named.2 ⟨names, opened, named⟩)
          refine .inr (.inr ?_)
          rw [Store.upcoming?, Store.named?_apply, Store.at?_apply]
          simp [Store.upcoming?, gathered]
        · cases known : t.find? (joinedName ns name) with
          | some o => exact .inl (missing o known named)
          | none =>
              obtain ⟨objects, gathered⟩ := h.unknown known
              refine .inr (.inr ?_)
              rw [Store.upcoming?, Store.named?_apply, Store.at?_apply]
              simp [Store.upcoming?, gathered, objects]
  | listed o =>
      simp only [WatchEvent.fits, Bool.and_eq_true] at fits
      by_cases own : o.Is ns name
      · have tracked := (Object.key?_eq_joinedName fits.2 good).2 own
        have place := (Object.of_eq_at fits.2).2 own
        refine ⟨listed own tracked place fits.1, fun _ _ => .inl ?_⟩
        exact ⟨_, List.mem_singleton_self _, o, (Tracker.apply_of_key _ tracked).2, own⟩
      · exact apart fits.2 own (.inl rfl)
  | applied o =>
      simp only [WatchEvent.fits, Bool.and_eq_true] at fits
      by_cases own : o.Is ns name
      · have tracked := (Object.key?_eq_joinedName fits.2 good).2 own
        have place := (Object.of_eq_at fits.2).2 own
        refine ⟨h.applied own tracked place, fun _ _ => .inl ?_⟩
        exact ⟨_, List.mem_singleton_self _, o, (Tracker.apply_of_key _ tracked).2, own⟩
      · exact apart fits.2 own (.inr (.inl rfl))
  | deleted o =>
      simp only [WatchEvent.fits, Bool.and_eq_true] at fits
      by_cases own : o.Is ns name
      · have tracked := (Object.key?_eq_joinedName fits.2 good).2 own
        have place := (Object.of_eq_at fits.2).2 own
        refine ⟨h.deleted tracked place (by simpa using fits.1), fun _ _ => .inl ?_⟩
        exact ⟨_, List.mem_singleton_self _, o, rfl, own⟩
      · exact apart fits.2 own (.inr (.inr rfl))

end Upkeep

end ResourceWatch
