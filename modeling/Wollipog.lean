import Wollipog.Lib.Run
import Wollipog.Lib.Js
import Wollipog.Lib.OrdMap
import Wollipog.Media.Once
import Wollipog.Durable.Once
import Wollipog.Lock.Exclusion
import Wollipog.Authority.Owner
import Wollipog.Frames.Delivery
import Wollipog.Receipts.Upkeep
import Wollipog.Budget.Envelope
import Wollipog.Control.Order
import Wollipog.Commands.Canonical
import Wollipog.Usage.Unseen
import Wollipog.Scope.Algebra
import Wollipog.Ports.Disjoint
import Wollipog.Share.Projection
import Wollipog.Recovery.Unskipped
import Wollipog.Cron.Fire
import Wollipog.Claude.Once
import Wollipog.Admission.Bounded
import Wollipog.Switch.Once
import Wollipog.Ledger.Armed
import Wollipog.Ledger.Related
import Wollipog.Ledger.Lookups
import Wollipog.Steering.Settled
import Wollipog.Prompts.Converge
import Wollipog.Prompts.Chain
import Wollipog.Lease.Owner
import Wollipog.Writer.Exclusive
import Wollipog.Usage.Exact
import Wollipog.Usage.Interleaved
import Wollipog.Policy.Decision
import Wollipog.Campaign.Repeat
import Wollipog.Reviews.Runs
import Wollipog.Transcript.Detected
import Wollipog.Closure.Merged
import Wollipog.Deltas.Coalescer
import Wollipog.Outbox.Flush
import Wollipog.Usage.Rates
import Wollipog.Workflows.Schedulable
import Wollipog.Handoffs.Hidden
import Wollipog.Registry.Listing
import Wollipog.Share.Rendering
import Wollipog.Payloads.Staging
import Wollipog.Ndjson.Buffer
import Wollipog.Media.ReviewWindows
import Wollipog.Serial.Queue
import Wollipog.Usage.Wire
import Wollipog.Reviews.Anchors
import Wollipog.Republish.Reconnects
import Wollipog.Payloads.HistoryBound
import Wollipog.Ledger.Dependencies
import Wollipog.Ledger.Pages
import Wollipog.Forge.Reports
import Wollipog.Commands.WindowsCmd
import Wollipog.Watches.Woken
import Wollipog.Publication.Once
import Wollipog.Scope.Floors
import Wollipog.Timeline.Nested
import Wollipog.Patches.Hunks
import Wollipog.Updater.Recorded
import Wollipog.Transcript.OnePass
import Wollipog.Retention.Response
import Wollipog.Retention.Chain
