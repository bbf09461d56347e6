import ResourceWatch.Sync.Gate
import ResourceWatch.Target

/-!
# Probes

The controller answers three kinds of requests: for its counters, whether it is
alive, and whether the first lists are complete. Each has a path of its own, and
is answered to a `GET` or a `HEAD` and to nothing else.
-/

namespace ResourceWatch

/-- What an answer to a request is headed by. -/
structure Response where
  /-- The number that says how the request went. -/
  status : Nat
  /-- What the answer holds. -/
  contentType : Option String := none
deriving DecidableEq, Repr

inductive Probe where
  /-- The counters. -/
  | metrics
  /-- Whether the controller is alive. -/
  | alive
  /-- Whether the first lists are complete. -/
  | ready
deriving DecidableEq, Repr

namespace Probe

def ofPath? : String → Option Probe
  | "/metrics" => some .metrics
  | "/healthz" => some .alive
  | "/readyz" => some .ready
  | _ => none

/-- The content type of the counters in text. -/
def exposition : String := "text/plain; version=0.0.4; charset=utf-8"

def answer (gate : SyncState) : Probe → Response
  | .metrics => ⟨200, some exposition⟩
  | .alive => ⟨200, none⟩
  | .ready => ⟨if gate = .synced then 200 else 503, none⟩

/-- Answer a request. A path that stands for nothing is not found, and for one
that stands for something no method but two is allowed. -/
def respond (gate : SyncState) (method target : String) : Response :=
  match (Target.ofText? target).bind (ofPath? ·.path) with
  | none => ⟨404, none⟩
  | some p => if method = "GET" ∨ method = "HEAD" then p.answer gate else ⟨405, none⟩

end Probe

end ResourceWatch
