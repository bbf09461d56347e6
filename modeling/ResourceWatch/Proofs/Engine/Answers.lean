import ResourceWatch.Proofs.Engine.Delivery

/-!
# What reconciles answer

Where reconciles look at the cache, the answers to a key are what was to be seen of
it in the cache at the moments at which it was handed out, in their order. Only the
last one may still be on its way, while a worker holds the key.
-/

namespace ResourceWatch

/-- What the reconciles of a key came to. -/
def History.answersTo (h : History) (key : String) : List ReconcileResult :=
  h.filterMap fun
    | .reconciled k result _ => if k = key then some result else none
    | _ => none

def Engine.beginnings (key : String) (past : Past Engine Engine.Command) : List Engine :=
  past.filterMap fun
    | (w, .move t) => if w.handed t = some key then some w else none
    | _ => none

theorem History.answersTo_append (h h' : History) (key : String) :
    answersTo (h ++ h') key = h.answersTo key ++ answersTo h' key := by
  simp [answersTo]

theorem History.answersTo_filter (h : History) (key : String) :
    answersTo (h.filter Occurrence.isMilestone) key = h.answersTo key := by
  rw [answersTo]
  rw [List.filterMap_filter]
  congr
  funext o
  cases o <;> rfl

/-- What is to be seen of a key depends on the stores alone. -/
theorem Cache.observe_congr {c c' : Cache} (same : c.store? = c'.store?) (plan : WatchPlan)
    (key : String) : (c.observe plan key).1 = (c'.observe plan key).1 := by
  simp only [observe]
  split
  · rfl
  · simp only [get?, same]

namespace Path

variable {p p' : Path} {t : TaskId} {key : String} {alone : Prop} {plan : WatchPlan}

def answers (p : Path) (key : String) : List ReconcileResult := History.answersTo p.record key

@[simp] theorem answers_note (o : Occurrence) :
    (p.note o).answers key = p.answers key ++ History.answersTo [o] key :=
  History.answersTo_append _ _ _

/-- All that was seen of a key was answered, except what a worker that holds the key
is about to answer. -/
structure Answers (plan : WatchPlan) (key : String) (seen : List ReconcileResult) (p : Path) :
    Prop where
  looks : p.looks = some plan
  told : ∃ held : Option ReconcileResult, p.answers key ++ held.toList = seen ∧
    ∀ result, held = some result ↔ ∃ t, p.role t = .holder key result

theorem Step.looks (step : Step alone p p') : p'.looks = p.looks := by
  cases step <;> rfl

/-- Somebody who holds no key becomes somebody who holds none. -/
theorem become_holder {r : Role} {result : ReconcileResult}
    (old : ∀ k r', p.role t ≠ .holder k r') (new : ∀ k r', r ≠ .holder k r') (u : TaskId) :
    (p.become t r).role u = .holder key result ↔ p.role u = .holder key result := by
  rw [become_role_eq_iff]
  constructor
  · rintro (⟨-, same⟩ | ⟨-, was⟩)
    · exact absurd same (new _ _)
    · exact was
  · intro was
    exact .inr ⟨fun here => old _ _ (here ▸ was), was⟩

/-- A step leaves the answers and the holders of a key alone, or a holder answers. -/
theorem Step.answers (step : Step alone p p') (key : String) :
    (p'.answers key = p.answers key ∧
      ∀ u result, p'.role u = .holder key result ↔ p.role u = .holder key result) ∨
    ∃ t result, p.role t = .holder key result ∧ p'.role t = .bystander ∧
      p'.answers key = p.answers key ++ [result] := by
  have aside : ∀ result q, Role.holder key result ≠ .pump q := by simp
  cases step with
  | conclude t k result time holder =>
      by_cases here : k = key
      · subst here
        refine .inr ⟨t, result, holder, become_role_self, ?_⟩
        rw [answers_note]
        simp [History.answersTo]
        rfl
      · refine .inl ⟨?_, ?_⟩
        · rw [answers_note]
          simp [History.answersTo, here]
          rfl
        · intro u r
          refine become_role_eq_iff.trans ⟨?_, fun was => .inr ⟨?_, was⟩⟩
          · rintro (⟨-, same⟩ | ⟨-, was⟩)
            · simp at same
            · exact was
          · rintro rfl
            exact here (Role.holder.inj (holder.symm.trans was)).1
  | begin t unstarted new | fail t new | record t free new =>
      exact .inl ⟨rfl, fun u _ => become_holder (by simp [new]) (by simp) u⟩
  | await t starter | «open» t opened starter =>
      exact .inl ⟨rfl, fun u _ => become_holder (by simp [starter]) (by simp) u⟩
  | retire t failing => exact .inl ⟨rfl, fun u _ => become_holder (by simp [failing]) (by simp) u⟩
  | delegate t v starter new =>
      refine .inl ⟨rfl, ?_⟩
      intro u _
      have ne : t ≠ v := by
        rintro rfl
        simp [new] at starter
      refine (become_holder (by simp [ne, starter]) (by simp) u).trans ?_
      exact become_holder (by simp [new]) (by simp) u
  | founder t opened spare pumps schedule starter =>
      refine .inl ⟨rfl, ?_⟩
      intro u _
      have still : (p.abandon pumps).role t = .starter opened :=
        (abandon_role_eq_iff (by simp)).2 starter
      refine (become_holder (p := p.abandon pumps) (fun _ _ => ?_) (by simp) u).trans ?_
      · rw [still]
        simp
      exact abandon_role_eq_iff (aside _)
  | forsake pumps => exact .inl ⟨rfl, fun u _ => abandon_role_eq_iff (aside _)⟩
  | stream t gvk store schedule new =>
      exact .inl ⟨rfl, fun u _ => become_holder (by simp [new]) (by simp) u⟩
  | pass t q item rest pump | pick t q item rest e pump | finish t q schedule pump =>
      exact .inl ⟨rfl, fun u _ => become_holder (by simp [pump]) (by simp) u⟩
  | send t q e pump =>
      refine .inl ⟨?_, fun u _ => become_holder (by simp [pump]) (by simp) u⟩
      rw [answers_note]
      simp [History.answersTo]
      rfl
  | _ => exact .inl ⟨rfl, fun _ _ => Iff.rfl⟩

theorem Answers.step {seen : List ReconcileResult} (h : Answers plan key seen p)
    (working : p.Working) (step : Step alone p p') : Answers plan key seen p' := by
  refine ⟨step.looks.trans h.looks, ?_⟩
  obtain ⟨held, told, holds⟩ := h.told
  obtain ⟨same, roles⟩ | ⟨t, result, holder, free, answered⟩ := step.answers key
  · exact ⟨held, by rw [same, told], fun result => by simp [holds, roles]⟩
  · -- what is answered is what the holder held, and nobody else holds the key
    obtain rfl := (holds result).2 ⟨t, holder⟩
    refine ⟨none, by simpa [answered] using told, fun r => ⟨by simp, ?_⟩⟩
    rintro ⟨u, still⟩
    obtain rfl := working.single u t key r result (step.holder still) holder
    simp [free] at still

/-- When a key is handed out, what is to be seen of it is on its way. -/
theorem Answers.take {seen : List ReconcileResult} {k : String} (h : Answers plan key seen p)
    (working : p.Working) (take : Take t k p p') {cache : Cache} (store : cache.store? = p.store) :
    Answers plan key (seen ++ if k = key then [(cache.observe plan key).1] else []) p' := by
  obtain ⟨queue, time, result, asking, taken, saw⟩ := take
  obtain ⟨looks, held, told, holds⟩ := h
  obtain ⟨c, same, rfl⟩ := saw plan looks
  rw [Cache.observe_congr (same.trans store.symm)]
  refine ⟨looks, ?_⟩
  have answers : ((((p.withQueue queue).become t (.holder k (cache.observe plan k).1)).note
      (.began k time)).answers key) = p.answers key := by
    rw [answers_note]
    simp [History.answersTo]
    rfl
  rw [answers]
  by_cases here : k = key
  · subst here
    have free : held = none := by
      by_contra some_held
      obtain ⟨r, rfl⟩ := Option.ne_none_iff_exists'.1 some_held
      obtain ⟨u, holder⟩ := (holds r).1 rfl
      exact (working.consistent.of_take? taken).2.2 (working.held u k r holder)
    subst free
    refine ⟨some (cache.observe plan k).1, by simpa using told, ?_⟩
    intro r
    have none_holds (u : TaskId) : p.role u ≠ .holder k r := by
      intro holder
      simpa using (holds r).2 ⟨u, holder⟩
    constructor
    · rintro ⟨⟩
      exact ⟨t, by simp⟩
    · rintro ⟨u, holder⟩
      obtain ⟨-, same⟩ | ⟨-, was⟩ := become_role_eq_iff.1 holder
      · rw [(Role.holder.inj same).2]
      · exact absurd was (none_holds u)
  · refine ⟨held, by simpa [here] using told, fun r => (holds r).trans ?_⟩
    refine exists_congr ?_
    intro u
    refine Iff.symm (become_role_eq_iff.trans ⟨?_, fun was => .inr ⟨?_, was⟩⟩)
    · rintro (⟨-, same⟩ | ⟨-, was⟩)
      · exact absurd (Role.holder.inj same).1 here
      · exact was
    · rintro rfl
      exact absurd (asking.symm.trans was) (by simp)

theorem Answers.inflow {seen : List ReconcileResult} {gvk : Gvk} {f : Feed}
    (h : Answers plan key seen p) (inflow : Inflow gvk f p p') : Answers plan key seen p' := by
  obtain ⟨-, role, record⟩ := inflow.keeps
  refine ⟨inflow.untouched.looks.trans h.looks, ?_⟩
  rw [answers, record, role]
  exact h.told

end Path

namespace Engine

open ResourceWatch.Path

variable {options : EngineOptions} {plan looked : WatchPlan} {past : Past Engine Command}
  {w : Engine}

theorem beginnings_handed {t : TaskId} {k : String} (handed : w.handed t = some k) (key : String) :
    beginnings key (past ++ [(w, Happening.move t)]) =
      beginnings key past ++ if k = key then [w] else [] := by
  by_cases here : k = key <;> simp [beginnings, handed, here]

theorem beginnings_quiet {h : Happening Command}
    (quiet : ∀ t, h = .move t → w.handed t = none) (key : String) :
    beginnings key (past ++ [(w, h)]) = beginnings key past := by
  cases h with
  | move t => simp [beginnings, quiet t rfl]
  | elapse | command => simp [beginnings]

/-- The beginning of a reconcile is a moment of the run. -/
theorem exists_of_mem_beginnings {key : String} (there : w ∈ beginnings key past) :
    ∃ before t later, past = before ++ (w, Happening.move t) :: later := by
  obtain ⟨⟨w', happening⟩, entry, begins⟩ := List.mem_filterMap.1 there
  cases happening with
  | move t =>
      obtain ⟨-, rfl⟩ : w'.handed t = some key ∧ w' = w := by simpa using begins
      obtain ⟨before, later, split⟩ := List.append_of_mem entry
      exact ⟨before, t, later, split⟩
  | elapse | command => simp at begins

/-- At every moment of a run in which reconciles look at the cache, what was to be
seen of a key whenever it was handed out was answered, or is about to be. -/
theorem answers_of_run (run : conduct.Run (ofPlan options plan) past w)
    (looks : (options.reconciler plan).plan? = some looked) (key : String) :
    Answers looked key
        ((beginnings key past).map fun w => (w.shop.cache.observe looked key).1) w.path ∧
      w.path.Working := by
  refine (path_of_run False (P := fun past p => Answers looked key
    ((beginnings key past).map fun w => (w.shop.cache.observe looked key).1) p ∧ p.Working)
    (fun _ _ => rfl) ?_ ?_ (fun absurd => absurd.elim) ?_ ?_ ?_ ?_ run).1
  · intro past c allowed
    exact ⟨by simpa [conduct] using allowed, fun absurd => absurd.elim⟩
  · have none_yet : (ofPlan options plan).path.answers key = [] := by
      simp [Path.answers, History.answersTo]
    exact ⟨⟨looks, none, by rw [none_yet]; rfl, by simp⟩,
      ⟨WorkQueue.consistent_empty, by simp, by simp⟩⟩
  · exact fun h _ step => ⟨h.1.step h.2 step, h.2.step step⟩
  · intro past w h answers quiet _
    simpa only [beginnings_quiet quiet] using answers
  · intro past w t k p' h handed take
    refine ⟨?_, h.2.take take⟩
    have taken := h.1.take h.2 take (rfl : w.shop.cache.store? = _)
    by_cases here : k = key
    · simpa [beginnings_handed handed, here] using taken
    · simpa [beginnings_handed handed, here] using taken
  · intro past w c gvk h _ _ inflow
    have same : beginnings key (past ++ [(w, Happening.command c)]) = beginnings key past :=
      beginnings_quiet (by simp) key
    rw [same]
    exact ⟨h.1.inflow inflow, h.2.inflow inflow⟩

/-- Where reconciles look at the cache and no key is in flight, the answers to a key
are what was to be seen of it when it was handed out. -/
theorem answersTo_of_run (run : conduct.Run (ofPlan options plan) past w)
    (looks : (options.reconciler plan).plan? = some looked) (key : String)
    (free : w.shop.queue.inFlight = []) :
    w.shop.history.answersTo key =
      (beginnings key past).map fun w => (w.shop.cache.observe looked key).1 := by
  obtain ⟨⟨-, held, told, holds⟩, working⟩ := answers_of_run run looks key
  obtain rfl : held = none := by
    by_contra some_held
    obtain ⟨result, rfl⟩ := Option.ne_none_iff_exists'.1 some_held
    obtain ⟨t, holder⟩ := (holds result).1 rfl
    have flight := working.held t key result holder
    simp [free] at flight
  rw [← told, Option.toList_none, List.append_nil]
  exact (History.answersTo_filter _ _).symm

end Engine

end ResourceWatch
