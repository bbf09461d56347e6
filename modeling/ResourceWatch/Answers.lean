/-!
# Answers that have come

Calls that take time are numbered in the order in which they were made. After a
step, the calls that have been answered since are told by their numbers.
-/

namespace ResourceWatch

/-- The calls that are answered in `after` and were not in `before`, with their
numbers and answers. Calls made in between were not answered before. -/
def newAnswers {α : Type} (before after : List (Option α)) : List (Nat × α) :=
  after.zipIdx.filterMap fun (answer, i) =>
    match before[i]? with
    | some (some _) => none
    | _ => answer.map fun a => (i, a)

end ResourceWatch
