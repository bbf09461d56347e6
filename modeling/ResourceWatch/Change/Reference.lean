import ResourceWatch.Kind.Id
import ResourceWatch.Object

/-!
# References

What is left of an object once a change to it has been noticed: its kind, its
place and its name, with the identity and version that the notice carried. Every
shape of notice comes down to the same reference.
-/

namespace ResourceWatch

/-- The object that a change is about. -/
structure Reference where
  /-- Its kind, if known. -/
  kind : Option Gvk
  /-- Its namespace; empty for objects of the whole cluster. -/
  ns : String
  /-- Its name. -/
  name : String
  /-- Its identity, if the notice carried one. -/
  uid : Option String
  /-- The version that the notice carried. -/
  resourceVersion : Option String
deriving DecidableEq, Repr, Inhabited

namespace Reference

/-- `namespace/name`, or the name alone for objects of the whole cluster. -/
def joinedName (r : Reference) : String := ResourceWatch.joinedName r.ns r.name

/-- The reference to an object, or nothing for an object without a name. A kind
given from outside wins over the object's own type words, because a watch knows
its kind even where the object leaves it out. -/
def ofObject? (o : Object) (kind : Option Gvk) : Option Reference :=
  o.name?.map fun name =>
    { kind := kind <|> o.types.bind fun t => Gvk.ofTypeWords? t.apiVersion t.kind
      ns := o.nsText
      name := name
      uid := o.metadata.uid
      resourceVersion := o.metadata.resourceVersion }

end Reference

end ResourceWatch
