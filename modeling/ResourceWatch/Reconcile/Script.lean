import ResourceWatch.History

/-!
# Scripted reconciles

A script says for each key how long its reconciles take and how they end, one
entry after the other. A reconcile beyond the script's entries takes no time and
ends well.
-/

namespace ResourceWatch

inductive ScriptedEnd where
  | ok
  | task
  | config
  | stream
  | cancelled
  /-- As reading the key goes. -/
  | decode
deriving DecidableEq, Repr

def ScriptedEnd.result (key : String) : ScriptedEnd → ReconcileResult
  | .ok => .ok .notFound
  | .task => .error (.task .injected)
  | .config => .error (.invalidConfig .injected)
  | .stream => .error (.watch (.stream "injected"))
  | .cancelled => .error (.watch .cancelled)
  | .decode =>
    match ObjectKey.decode key with
    | .ok _ => .ok .notFound
    | .error fault => .error (.watch (.malformedKey key fault))

/-- One scripted reconcile. -/
structure ScriptedReconcile where
  /-- How many milliseconds it takes. -/
  millis : Nat
  /-- How it ends. -/
  outcome : ScriptedEnd
deriving DecidableEq, Repr

abbrev Script := List (String × List ScriptedReconcile)

/-- The next reconcile of a key, and the script after it. -/
def Script.next (s : Script) (key : String) : ScriptedReconcile × Script :=
  match s.find? (·.1 == key) with
  | some (_, step :: rest) =>
    (step, s.map fun entry => if entry.1 == key then (key, rest) else entry)
  | _ => (⟨0, .ok⟩, s)

end ResourceWatch
