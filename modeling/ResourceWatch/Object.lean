import ResourceWatch.Json

/-!
# Objects

An object as a watch delivers it: the words of its type, its identity, and a
payload that the engine does not look into. Every part may be missing.
-/

namespace ResourceWatch

/-- The words with which an object names its own type. -/
structure TypeWords where
  /-- Group and version, joined. -/
  apiVersion : String
  /-- Kind. -/
  kind : String
deriving DecidableEq, Repr, Inhabited

/-- Identity and bookkeeping of an object. -/
structure Metadata where
  /-- Name; objects without one cannot be told apart. -/
  name : Option String := none
  /-- Namespace, absent for objects of the whole cluster. -/
  ns : Option String := none
  /-- Identity over the object's life. -/
  uid : Option String := none
  /-- The change that produced this state. -/
  resourceVersion : Option String := none
  /-- Labels in the order of their keys. -/
  labels : Option (List (String × String)) := none
  /-- How many writers have recorded the fields they manage. -/
  managers : Nat := 0
deriving DecidableEq, Repr, Inhabited

/-- An object of any kind. -/
structure Object where
  /-- Its own type words, if it carries them. -/
  types : Option TypeWords := none
  /-- Its identity. -/
  metadata : Metadata := {}
  /-- Its payload. -/
  data : Json := .null
deriving DecidableEq, Repr, Inhabited

namespace Object

/-- The object's name, unless it is missing or empty. -/
def name? (o : Object) : Option String := o.metadata.name.filter fun n => !n.isEmpty

/-- The object's namespace; a missing one reads as the empty text. -/
def nsText (o : Object) : String := o.metadata.ns.getD ""

/-- What is remembered of an object after its payload and its record of field
managers are let go. -/
def remembered (o : Object) : Object where
  types := o.types
  metadata := { o.metadata with managers := 0 }
  data := .null

end Object

/-- `namespace/name`, or the name alone when the namespace is empty. -/
def joinedName (ns name : String) : String :=
  if ns.isEmpty then name else ns ++ "/" ++ name

/-- The text under which a named object is tracked; an object without a name has
none. -/
def Object.key? (o : Object) : Option String := o.name?.map (joinedName o.nsText)

end ResourceWatch
