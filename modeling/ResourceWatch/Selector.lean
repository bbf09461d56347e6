import ResourceWatch.Kind.Id

/-!
# Selectors

A selector declares what is to be watched: a resource type, narrowed to one
namespace, to one name, to both or to neither. `Selector.declare` turns empty
words into missing ones, so that an empty word narrows nothing.
-/

namespace ResourceWatch

/-- A text, or nothing when it is empty. -/
def nonEmpty (s : String) : Option String := if s.isEmpty then none else some s

/-- A resource type, possibly narrowed to a namespace and to a name. -/
structure Selector where
  /-- The type of the selected objects. -/
  id : ResourceId
  /-- The only namespace to select from. -/
  ns : Option String := none
  /-- The only name to select. -/
  name : Option String := none
deriving DecidableEq, Repr, Inhabited

namespace Selector

/-- A selector from declared words, in which an empty word means any. -/
def declare (id : ResourceId) (ns name : Option String) : Selector :=
  ⟨id, ns.bind nonEmpty, name.bind nonEmpty⟩

/-- Whether the selector takes every object of its type. -/
def isWildcard (s : Selector) : Bool := s.ns.isNone && s.name.isNone

/-- Whether an object in a namespace, empty for the whole cluster, and of a name
is selected. -/
def selects (s : Selector) (ns name : String) : Bool :=
  s.ns.all (· == ns) && s.name.all (· == name)

/-- The type, then namespace and name with a star for each that is open. -/
def text (s : Selector) : String :=
  s.id.text ++ " " ++ s.ns.getD "*" ++ "/" ++ s.name.getD "*"

/-- An object is selected exactly when each narrowing word is its own. -/
theorem selects_iff {s : Selector} {ns name : String} :
    s.selects ns name = true ↔ (∀ n ∈ s.ns, n = ns) ∧ ∀ n ∈ s.name, n = name := by
  cases hn : s.ns <;> cases hm : s.name <;> simp [selects, hn, hm, Option.all]

end Selector

end ResourceWatch
