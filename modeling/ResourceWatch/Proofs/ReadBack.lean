import ResourceWatch.Proofs.Engine.Freshness
import ResourceWatch.Proofs.Judging

/-!
# The object behind a key is found again

On its way to a reconcile the identity of an object is written four times: in the object,
in the reference that a notification comes down to, in the key, and in the place that a
look-up asks for. The object and its place in the store may have no namespace, or an empty
one; reference and key know only the empty text, and a look-up takes that for none.

So an object that is in the store is read back by its key, in the state in which it is
stored, unless its namespace is the empty text. Then the look-up asks for another place,
and tells of the object that stands there, if one does.
-/

namespace ResourceWatch

/-- Every object stands at its own place, and no place is taken twice. -/
structure Placed (entries : List (StoreKey × Object)) : Prop where
  own : ∀ entry ∈ entries, entry.1 = StoreKey.of entry.2
  nodup : (entries.map Prod.fst).Nodup

namespace Placed

variable {entries : List (StoreKey × Object)} {place : StoreKey} {o : Object}

theorem empty : Placed [] := ⟨by simp, .nil⟩

theorem filter (h : Placed entries) (keep : StoreKey × Object → Bool) :
    Placed (entries.filter keep) :=
  ⟨fun entry there => h.own entry (List.mem_of_mem_filter there),
    h.nodup.sublist (List.filter_sublist.map _)⟩

theorem put (h : Placed entries) (o : Object) : Placed (Store.put o entries) := by
  have others := h.filter (·.1 != StoreKey.of o)
  refine ⟨?_, List.nodup_cons.2 ⟨by simp, others.nodup⟩⟩
  intro entry there
  obtain rfl | there := List.mem_cons.1 there
  · rfl
  · exact others.own entry there

theorem find?_of_mem (h : Placed entries) (there : (place, o) ∈ entries) :
    (entries.find? (·.1 == StoreKey.of o)).map (·.2) = some o := by
  obtain rfl : place = StoreKey.of o := h.own _ there
  exact find?_eq_some_of_mem h.nodup there

end Placed

namespace Cache

/-- The caches that come about when kinds are given their stores and reports are applied
to them, in any order and any number. -/
inductive Reached : Cache → Prop where
  | empty : Reached {}
  | attached {c c' : Cache} {gvk : Gvk} (before : Reached c) (given : c.attach gvk = .ok c') :
      Reached c'
  | reported {c : Cache} (before : Reached c) (gvk : Gvk) (e : WatchEvent) :
      Reached (c.apply gvk e)

variable {c : Cache} {gvk : Gvk} {s : Store}

theorem Reached.reports (reached : c.Reached) (gvk : Gvk) (events : List WatchEvent) :
    (events.foldl (fun c e => c.apply gvk e) c).Reached := by
  induction events generalizing c with
  | nil => exact reached
  | cons e events ih => exact ih (reached.reported gvk e)

theorem placed_apply (objects : Placed s.objects) (gathered : Placed s.gathered)
    (e : WatchEvent) : Placed (s.apply e).objects ∧ Placed (s.apply e).gathered := by
  cases e with
  | listBegin => exact ⟨objects, .empty⟩
  | listed o => exact ⟨objects, gathered.put o⟩
  | listEnd => exact ⟨gathered, .empty⟩
  | applied o => exact ⟨objects.put o, gathered⟩
  | deleted o => exact ⟨objects.filter _, gathered⟩

/-- In every store, and in what an open full list has named, objects stand at their own
places. -/
theorem placed_of_reached (reached : c.Reached) (known : c.store? gvk = some s) :
    Placed s.objects ∧ Placed s.gathered := by
  induction reached generalizing gvk s with
  | empty => cases known
  | @attached c c' g before given ih =>
      obtain ⟨fresh, rfl⟩ := attach_eq_ok.1 given
      rw [store?_attached c g fresh, Function.update_apply] at known
      split at known
      · cases known
        exact ⟨.empty, .empty⟩
      · exact ih known
  | @reported c before g e ih =>
      rw [store?_apply] at known
      obtain ⟨s₀, was, rfl⟩ := Option.map_eq_some_iff.1 known
      obtain ⟨objects, gathered⟩ := ih was
      split
      · exact placed_apply objects gathered e
      · exact ⟨objects, gathered⟩

/-- A look-up by the name and the namespace text of an object that is in the store finds
the object, unless its namespace is the empty text. -/
theorem get?_of_stored (placed : Placed s.objects) (known : c.store? gvk = some s)
    {place : StoreKey} {o : Object} (stored : (place, o) ∈ s.objects) {name : String}
    (named : o.name? = some name) :
    c.get? gvk o.nsText name =
      if o.metadata.ns = some "" then s.at? ⟨none, name⟩ else some o := by
  have found : s.at? (StoreKey.of o) = some o := placed.find?_of_mem stored
  have kept : o.metadata.name = some name := by
    simpa [Object.name?] using (Option.filter_eq_some_iff.1 named).1
  have asked : c.get? gvk o.nsText name = s.get? (.at o.nsText name) := by
    simp [get?, known, StoreKey.at]
  rw [asked, Store.get?]
  cases space : o.metadata.ns with
  | none =>
      rw [StoreKey.of, space, kept, Option.getD_some] at found
      simp [StoreKey.at, Object.nsText, space, found]
  | some ns =>
      rw [StoreKey.of, space, kept, Option.getD_some] at found
      by_cases blank : ns = ""
      · simp [StoreKey.at, Object.nsText, space, blank]
      · simp [StoreKey.at, Object.nsText, space, blank, String.isEmpty_iff, found]

/-- Take an object with a name that is in the store of its kind, whatever was reported
before. Every notification about it, in whatever state it carries the object, has a
reference, and the reference a key. If the namespace of the object is missing or is not
empty, a reconcile of the key finds the object as it is stored. If it is the empty text,
the reconcile tells what is stored under the name without a namespace. -/
theorem reads_back_of_stored (reached : c.Reached) (version : gvk.version ≠ "")
    (kind : gvk.kind ≠ "") (known : c.store? gvk = some s) {place : StoreKey} {o : Object}
    (stored : (place, o) ∈ s.objects) {name : String} (named : o.name? = some name)
    (bounded : ∀ f ∈ ObjectKey.fields ⟨gvk, o.nsText, name⟩,
      byteLength f < ObjectKey.lengthBound)
    {n : Notification} {told : Object} (carries : n.object? = some told)
    (about : StoreKey.of told = StoreKey.of o) (plan : WatchPlan) :
    ∃ r key, n.reference (some gvk) = .ok r ∧ ObjectKey.ofReference? r = some key ∧
      (o.metadata.ns ≠ some "" → (c.observe plan key.encode).1 =
        .ok (.found o.metadata.uid o.metadata.resourceVersion)) ∧
      (o.metadata.ns = some "" → (c.observe plan key.encode).1 =
        .ok (.of (s.at? ⟨none, name⟩))) := by
  obtain ⟨kept, full⟩ := Option.filter_eq_some_iff.1 named
  obtain ⟨space, sameName⟩ := StoreKey.mk.inj about
  have toldName : told.name? = some name := by
    rw [kept, Option.getD_some] at sameName
    cases has : told.metadata.name with
    | none => simp [has, ← sameName] at full
    | some other =>
        rw [has, Option.getD_some] at sameName
        simpa [Object.name?, has, sameName, Option.filter] using full
  have toldSpace : told.nsText = o.nsText := congrArg (Option.getD · "") space
  have readable : ObjectKey.Readable ⟨gvk, o.nsText, name⟩ :=
    ⟨version, kind, by simpa using full, bounded⟩
  have looked := get?_of_stored (placed_of_reached reached known).1 known stored named
  have answered := observe_encode c plan readable
  dsimp only at answered
  rw [looked] at answered
  refine ⟨_, ⟨gvk, o.nsText, name⟩,
    Notification.reference_eq_ok_iff.2 ⟨told, name, carries, toldName, rfl⟩, ?_, ?_, ?_⟩
  · rw [toldSpace]
    rfl
  · intro there
    rw [answered, if_neg there]
    rfl
  · intro blank
    rw [answered, if_pos blank]

/-- Objects of one name differ in their namespaces. -/
def namesake (ns : Option String) (uid : String) : Object where
  metadata := { name := some "3:ü:", ns, uid := some uid, resourceVersion := some "7" }

/-- The cache of a kind after some reports on it. -/
def onConfigMaps (events : List WatchEvent) : Cache :=
  events.foldl (fun c e => c.apply Engine.configMap e) ⟨[(Engine.configMap, default)]⟩

theorem reached_onConfigMaps (events : List WatchEvent) : (onConfigMaps events).Reached := by
  have given : Cache.attach {} Engine.configMap = .ok ⟨[(Engine.configMap, default)]⟩ := rfl
  exact (Reached.empty.attached given).reports Engine.configMap events

/-- Three objects of one name: the first one is read back, and the one with the empty
namespace is taken for the one without. -/
def threeNamesakes : List WatchEvent :=
  [.listBegin, .listed (namesake none "u1"), .listed (namesake (some "obj:") "u2"), .listEnd,
    .applied (namesake (some "") "u3")]

theorem reads_back_of_threeNamesakes :
    (onConfigMaps threeNamesakes).Reached ∧ ∃ s,
      (onConfigMaps threeNamesakes).store? Engine.configMap = some s ∧
      (∃ place, (place, namesake (some "obj:") "u2") ∈ s.objects) ∧
      (∃ place, (place, namesake (some "") "u3") ∈ s.objects) ∧
      (∃ r key, (Notification.deleted (.unseen "lost" (some
            (namesake (some "obj:") "u2").remembered))).reference (some Engine.configMap) = .ok r ∧
        ObjectKey.ofReference? r = some key ∧
        ((onConfigMaps threeNamesakes).observe {} key.encode).1 =
          .ok (.found (some "u2") (some "7"))) ∧
      ∃ r key, (Notification.added (namesake (some "") "u3")).reference
          (some Engine.configMap) = .ok r ∧
        ObjectKey.ofReference? r = some key ∧
        ((onConfigMaps threeNamesakes).observe {} key.encode).1 =
          .ok (.found (some "u1") (some "7")) := by
  have reached := reached_onConfigMaps threeNamesakes
  obtain ⟨s, known, first, blank, other⟩ : ∃ s,
      (onConfigMaps threeNamesakes).store? Engine.configMap = some s ∧
      (StoreKey.of (namesake (some "obj:") "u2"), namesake (some "obj:") "u2") ∈ s.objects ∧
      (StoreKey.of (namesake (some "") "u3"), namesake (some "") "u3") ∈ s.objects ∧
      s.at? ⟨none, "3:ü:"⟩ = some (namesake none "u1") :=
    ⟨_, rfl, by decide +kernel, by decide +kernel, by decide +kernel⟩
  have named (ns : Option String) (uid : String) : (namesake ns uid).name? = some "3:ü:" := by
    simp [namesake, Object.name?, Option.filter]
  obtain ⟨r, key, refers, keyed, finds, -⟩ := reads_back_of_stored reached (by decide)
    (by decide) known first (named _ _) (by decide +kernel)
    (n := .deleted (.unseen "lost" (some (namesake (some "obj:") "u2").remembered))) rfl rfl {}
  obtain ⟨r', key', refers', keyed', -, tells⟩ := reads_back_of_stored reached (by decide)
    (by decide) known blank (named _ _) (by decide +kernel)
    (n := .added (namesake (some "") "u3")) rfl rfl {}
  have told := tells rfl
  rw [other] at told
  exact ⟨reached, s, known, ⟨_, first⟩, ⟨_, blank⟩, ⟨r, key, refers, keyed, finds (by decide)⟩,
    r', key', refers', keyed', told⟩

/-- An object with an empty namespace is in the store, and a reconcile of its key does not
find it. -/
theorem reads_nothing_of_blank :
    (onConfigMaps [.applied (namesake (some "") "u3")]).Reached ∧ ∃ s,
      (onConfigMaps [.applied (namesake (some "") "u3")]).store? Engine.configMap = some s ∧
      (∃ place, (place, namesake (some "") "u3") ∈ s.objects) ∧
      ∃ r key, (Notification.added (namesake (some "") "u3")).reference
          (some Engine.configMap) = .ok r ∧
        ObjectKey.ofReference? r = some key ∧
        ((onConfigMaps [.applied (namesake (some "") "u3")]).observe {} key.encode).1 =
          .ok .notFound := by
  exact ⟨reached_onConfigMaps _, _, rfl,
    ⟨StoreKey.of (namesake (some "") "u3"), by decide +kernel⟩, _, _, rfl, rfl,
    by decide +kernel⟩

end Cache

end ResourceWatch
