import ResourceWatch.Dispatch.Verdict

/-!
# What filters make of a notification

Every shape of notification comes down to the object that it carries. The verdict on
it depends on the name and the namespace of that object, and on the filters of the
kind, and on nothing else.
-/

namespace ResourceWatch

variable {n : Notification} {gvk : Gvk} {kind : Option Gvk} {r : Reference} {table : FilterTable}

/-- An object with a name is referred to by the kind of its watch, by its namespace and
by its name. -/
theorem Reference.ofObject?_eq_some_iff {o : Object} :
    ofObject? o (some gvk) = some r ↔ ∃ name, o.name? = some name ∧
      r = ⟨some gvk, o.nsText, name, o.metadata.uid, o.metadata.resourceVersion⟩ := by
  rw [ofObject?, Option.map_eq_some_iff]
  exact exists_congr fun name => and_congr_right fun _ => eq_comm

namespace Notification

/-- Every shape of notification refers to the object that it carries. -/
theorem reference_eq_ok_iff_ofObject? :
    n.reference kind = .ok r ↔ ∃ o, n.object? = some o ∧ Reference.ofObject? o kind = some r := by
  have taken (o : Object) : (∃ o', some o = some o' ∧ Reference.ofObject? o' kind = some r) ↔
      Reference.ofObject? o kind = some r := by simp
  unfold reference object?
  split
  · simp
  all_goals
    rw [taken]
    split <;> simp_all

/-- A notification refers to the object with a name that it carries. -/
theorem reference_eq_ok_iff :
    n.reference (some gvk) = .ok r ↔ ∃ o name, n.object? = some o ∧ o.name? = some name ∧
      r = ⟨some gvk, o.nsText, name, o.metadata.uid, o.metadata.resourceVersion⟩ := by
  simp only [reference_eq_ok_iff_ofObject?, Reference.ofObject?_eq_some_iff, exists_and_left]

/-- Without such an object it has no reference. -/
theorem exists_reference_eq_error (gvk : Gvk)
    (unnamed : ∀ o, n.object? = some o → o.name? = none) :
    ∃ fault, n.reference (some gvk) = .error fault := by
  cases refers : n.reference (some gvk) with
  | error fault => exact ⟨fault, rfl⟩
  | ok r =>
      obtain ⟨o, name, carries, named, -⟩ := reference_eq_ok_iff.1 refers
      exact absurd (named.symm.trans (unnamed o carries)) (by simp)

end Notification

namespace FilterTable

/-- What becomes of a notification that carries no object with a name. -/
theorem judge_of_unnamed (unnamed : ∀ o, n.object? = some o → o.name? = none) :
    (table.judge gvk n).1 = .drop .malformed := by
  obtain ⟨fault, refers⟩ := Notification.exists_reference_eq_error gvk unnamed
  rw [judge]
  rw [refers]

/-- What becomes of a notification about an object with a name. The first filter of the
kind that takes the object decides for whom the change is passed on. -/
theorem judge_of_named {o : Object} {name : String} (carries : n.object? = some o)
    (named : o.name? = some name) :
    (table.judge gvk n).1 =
      if table.filtersOf gvk = [] then .drop .noFilters
      else match (table.filtersOf gvk).find? (·.selector.selects o.nsText name) with
        | none => .drop .filtered
        | some f => .forward
            ⟨⟨some gvk, o.nsText, name, o.metadata.uid, o.metadata.resourceVersion⟩,
              f.owner, n.action⟩ := by
  have refers : n.reference (some gvk) =
      .ok ⟨some gvk, o.nsText, name, o.metadata.uid, o.metadata.resourceVersion⟩ :=
    Notification.reference_eq_ok_iff.2 ⟨o, name, carries, named, rfl⟩
  rw [judge]
  rw [refers]
  dsimp only
  split
  next none => rw [none]; rfl
  next filters =>
    rw [if_neg filters]
    simp only [Filter.takes]
    cases (table.filtersOf gvk).find? (·.selector.selects o.nsText name) <;> rfl

end FilterTable

end ResourceWatch
