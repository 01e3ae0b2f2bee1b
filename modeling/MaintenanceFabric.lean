import MaintenanceFabric.Lib.Table
import MaintenanceFabric.Core.Bytes
import MaintenanceFabric.Core.Hash
import MaintenanceFabric.Domain.Identity
import MaintenanceFabric.Domain.Lifecycle
import MaintenanceFabric.Store.Records
import MaintenanceFabric.Store.Journal
import MaintenanceFabric.Store.Compaction
import MaintenanceFabric.Domain.Evidence
import MaintenanceFabric.Domain.Window
import MaintenanceFabric.Domain.Policy
import MaintenanceFabric.Domain.Topology
import MaintenanceFabric.Domain.Authority
import MaintenanceFabric.Domain.Job
import MaintenanceFabric.Engine.Readiness
import MaintenanceFabric.Engine.Impact
import MaintenanceFabric.Engine.Preconditions
import MaintenanceFabric.Engine.Arbitration
import MaintenanceFabric.Store.Image
import MaintenanceFabric.Store.Store
import MaintenanceFabric.Runtime.Controller
import MaintenanceFabric.Runtime.Calls
import MaintenanceFabric.Runtime.System
import MaintenanceFabric.Store.Books
import MaintenanceFabric.Runtime.Edits
import MaintenanceFabric.Runtime.Effects
import MaintenanceFabric.Runtime.Drives
import MaintenanceFabric.Runtime.Grants
import MaintenanceFabric.Runtime.CallEffects
import MaintenanceFabric.Runtime.Recovery
import MaintenanceFabric.Runtime.Invariants
import MaintenanceFabric.Lib.Run
import MaintenanceFabric.Runtime.Frames
import MaintenanceFabric.Runtime.Steps
import MaintenanceFabric.Engine.Gate
import MaintenanceFabric.Guarantees.Lifecycle
import MaintenanceFabric.Guarantees.Start
import MaintenanceFabric.Guarantees.Fencing
import MaintenanceFabric.Guarantees.Exclusion
import MaintenanceFabric.Guarantees.Capacity
import MaintenanceFabric.Guarantees.Reservation
import MaintenanceFabric.Guarantees.Revisions
import MaintenanceFabric.Guarantees.Confirmation
import MaintenanceFabric.Guarantees.Failure
import MaintenanceFabric.Guarantees.Restoration
import MaintenanceFabric.Guarantees.Verdicts
import MaintenanceFabric.Guarantees.Survival
import MaintenanceFabric.Store.Frames
import MaintenanceFabric.Lib.Checksum
import MaintenanceFabric.Store.Damage
import MaintenanceFabric.Store.ShortWrites
import MaintenanceFabric.Lib.Decode
import MaintenanceFabric.Store.Codec
import MaintenanceFabric.Store.Entities
import MaintenanceFabric.Store.JobCodec
import MaintenanceFabric.Store.PolicyCodec
import MaintenanceFabric.Store.TopologyCodec
import MaintenanceFabric.Store.Entry
import MaintenanceFabric.Lib.WriteAhead
import MaintenanceFabric.Store.Replay
import MaintenanceFabric.Store.Standing
import MaintenanceFabric.Runtime.Drains
import MaintenanceFabric.Runtime.Emissions
import MaintenanceFabric.Guarantees.Drains
import MaintenanceFabric.Runtime.Holdings
import MaintenanceFabric.Runtime.Accounting
import MaintenanceFabric.Runtime.Reconciliation
import MaintenanceFabric.Guarantees.Holdings
import MaintenanceFabric.Runtime.Bindings
import MaintenanceFabric.Transport.Frame
import MaintenanceFabric.Transport.Protocol
import MaintenanceFabric.Transport.Evidence
import MaintenanceFabric.Store.Reopening
import MaintenanceFabric.Guarantees.Policies
import MaintenanceFabric.Store.Transactions
import MaintenanceFabric.Store.RecordCodecs
import MaintenanceFabric.Store.TopologyOrder
import MaintenanceFabric.Store.Strictness
import MaintenanceFabric.Guarantees.Revocation
import MaintenanceFabric.Store.Sessions
import MaintenanceFabric.Guarantees.Identities
import MaintenanceFabric.Store.Writes
import MaintenanceFabric.Guarantees.Mirroring
import MaintenanceFabric.Store.Continuation
import MaintenanceFabric.Guarantees.Refusals
import MaintenanceFabric.Engine.Projection
import MaintenanceFabric.Guarantees.Projection
import MaintenanceFabric.Guarantees.Rules
import MaintenanceFabric.Guarantees.Arbitration
import MaintenanceFabric.Guarantees.JointSafety
import MaintenanceFabric.Guarantees.Concurrency
import MaintenanceFabric.Guarantees.Rearming
import MaintenanceFabric.Lib.Lockstep
import MaintenanceFabric.Drain.Local
import MaintenanceFabric.Drain.Remote
import MaintenanceFabric.Drain.Exchange
import MaintenanceFabric.Guarantees.DrainPorts
import MaintenanceFabric.Lib.Words
import MaintenanceFabric.Config.Text
import MaintenanceFabric.Config.Lines
import MaintenanceFabric.Config.TopologyText
import MaintenanceFabric.Guarantees.TopologyText
import MaintenanceFabric.Config.Time
import MaintenanceFabric.Config.PolicyText
import MaintenanceFabric.Config.PolicyLines
import MaintenanceFabric.Guarantees.PolicyText
import MaintenanceFabric.Guarantees.Binding
import MaintenanceFabric.Guarantees.Scope
import MaintenanceFabric.Guarantees.Evidence
import MaintenanceFabric.Guarantees.Batches
import MaintenanceFabric.Guarantees.Completion
import MaintenanceFabric.Guarantees.Approval
import MaintenanceFabric.Guarantees.Validation
import MaintenanceFabric.Guarantees.Windows
import MaintenanceFabric.Guarantees.Instants
import MaintenanceFabric.Guarantees.Blocks
import MaintenanceFabric.Guarantees.Releases
import MaintenanceFabric.Guarantees.Fields
import MaintenanceFabric.Lib.Calendar
import MaintenanceFabric.Config.Identities
import MaintenanceFabric.Config.Spellings
import MaintenanceFabric.Guarantees.TimeText
import MaintenanceFabric.Guarantees.Readiness
import MaintenanceFabric.Lib.Index
import MaintenanceFabric.Guarantees.TopologyIndexes
import MaintenanceFabric.Lib.Walk
import MaintenanceFabric.Lib.Override
import MaintenanceFabric.Guarantees.Expansion
import MaintenanceFabric.Runtime.Ledgers
import MaintenanceFabric.Guarantees.Ledger
import MaintenanceFabric.Guarantees.PolicyFiles
import MaintenanceFabric.Guarantees.TopologyFiles
import MaintenanceFabric.Guarantees.Repetition
import MaintenanceFabric.Guarantees.Dependencies
import MaintenanceFabric.Engine.Scheduling
import MaintenanceFabric.Lib.Coarse
import MaintenanceFabric.Runtime.Host
import MaintenanceFabric.Guarantees.Sequential
import MaintenanceFabric.Guarantees.Backing
import MaintenanceFabric.Engine.Conflicts
import MaintenanceFabric.Guarantees.Conflicts
import MaintenanceFabric.Transport.Server
import MaintenanceFabric.Guarantees.Serving
import MaintenanceFabric.Transport.Client
import MaintenanceFabric.Guarantees.Sessions
import MaintenanceFabric.Transport.Api
import MaintenanceFabric.Guarantees.RemoteCalls
import MaintenanceFabric.Guarantees.LocalLeases
