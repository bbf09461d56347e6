import ResourceWatch.Cache
import ResourceWatch.History
import ResourceWatch.Plan

/-!
# Reconciling from the cache

A reconcile of a key reads the object of the key back from the cache and tells
what it saw, with the owners whose selectors take the object. A text that is no
key is an error, and so is never looked up.
-/

namespace ResourceWatch

def Cache.observe (cache : Cache) (plan : WatchPlan) (key : String) :
    ReconcileResult × List LogEvent :=
  match ObjectKey.decode key with
  | .error fault => (.error (.watch (.malformedKey key fault)), [.refusing key fault])
  | .ok k =>
    let owners := plan.ownersOf k.gvk k.ns k.name
    match cache.get? k.gvk k.ns k.name with
    | none => (.ok .notFound, [.absent k owners])
    | some o =>
      let uid := o.metadata.uid
      let version := o.metadata.resourceVersion
      (.ok (.found uid version), [.present k uid version owners])

end ResourceWatch
