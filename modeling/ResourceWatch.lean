import ResourceWatch.Answers
import ResourceWatch.Cluster.Discovery
import ResourceWatch.Cluster.KindStream
import ResourceWatch.Dispatch.World
import ResourceWatch.Main
import ResourceWatch.Probes
import ResourceWatch.Reconcile.World
import ResourceWatch.Source.World
import ResourceWatch.Sync.World
import ResourceWatch.WorkQueue.World
import ResourceWatch.Double.Shortest
import ResourceWatch.Json.Text
import ResourceWatch.Proofs.WorkQueue.World
import ResourceWatch.Proofs.Engine.Freshness
import ResourceWatch.Proofs.Engine.Registrations
import ResourceWatch.Proofs.Engine.Watching
import ResourceWatch.Proofs.Key.Canonical
import ResourceWatch.Proofs.Mirror
import ResourceWatch.Proofs.Selection
import ResourceWatch.Proofs.WorkQueue.Wakeups
import ResourceWatch.Proofs.Engine.Ownership
import ResourceWatch.Proofs.Engine.Cleanup
import ResourceWatch.Proofs.Engine.Barrier
import ResourceWatch.Proofs.Engine.Draining
import ResourceWatch.Proofs.Tracker.Replay
import ResourceWatch.Proofs.Tracker.Relist
import ResourceWatch.Proofs.Dispatch.Backpressure
import ResourceWatch.Proofs.Reconcile.Punctual
import ResourceWatch.Proofs.WorkQueue.Fairness
import ResourceWatch.Proofs.Engine.Opening
import ResourceWatch.Proofs.Backoff
import ResourceWatch.Proofs.ReadBack
import ResourceWatch.Proofs.Sync.Waiters
import ResourceWatch.Proofs.Source.Handover
import ResourceWatch.Proofs.Text.Numeral
import ResourceWatch.Proofs.Settings
import ResourceWatch.Proofs.Engine.Making
import ResourceWatch.Proofs.Controller
