import InfinityOS.Transition.Run
import InfinityOS.Scheduler.State
import InfinityOS.Scheduler.Index
import InfinityOS.Scheduler.Lifecycle
import InfinityOS.Scheduler.Effect
import InfinityOS.Scheduler.Accounting
import InfinityOS.Scheduler.Dependency
import InfinityOS.Scheduler.Renumbering
import InfinityOS.Scheduler.Recovery
import InfinityOS.Graph.Operation
import InfinityOS.Paths.Acyclic
import InfinityOS.Core.Maps
import InfinityOS.Graph.Analysis
import InfinityOS.Graph.Order
import InfinityOS.Graph.Cycle
import InfinityOS.Graph.Integrity
import InfinityOS.Graph.Agreement
import InfinityOS.Graph.PatchPath
import InfinityOS.Graph.Diff
import InfinityOS.Transition.Loop
import InfinityOS.Words.Align
import InfinityOS.Kernel.Arena
import InfinityOS.Kernel.Growth
import InfinityOS.Transition.Reach
import InfinityOS.Kernel.Soundness
import InfinityOS.Words.Fields
import InfinityOS.Kernel.Dimension
import InfinityOS.Kernel.TaskId
import InfinityOS.Security.SupplyChain
import InfinityOS.Filesystem.Components
import InfinityOS.Security.Sandbox
import InfinityOS.Text.Quoted
import InfinityOS.Security.Audit
import InfinityOS.Core.InvertedIndex
import InfinityOS.Mesh.Types
import InfinityOS.Mesh.Store
import InfinityOS.Mesh.System
import InfinityOS.Mesh.Table
import InfinityOS.Mesh.Index
import InfinityOS.Core.Watermark
import InfinityOS.Mesh.Delivery
import InfinityOS.Mesh.Immutability
import InfinityOS.Mesh.Replication
import InfinityOS.Mesh.Convergence
import InfinityOS.Mesh.Revision
import InfinityOS.Core.LevelQueue
import InfinityOS.Kernel.Scheduler
import InfinityOS.Kernel.TaskTable
import InfinityOS.Kernel.Completion
import InfinityOS.Core.Ranking
import InfinityOS.Scheduler.Absorption
import InfinityOS.Scheduler.Promotion
import InfinityOS.Security.Policy
import InfinityOS.Core.UndoRedo
import InfinityOS.Editor.History
import InfinityOS.Orchestrator.Broadcast
import InfinityOS.Core.LockProgram
import InfinityOS.Execution.Cancellation
import InfinityOS.Kernel.ServiceRegistry
import InfinityOS.Core.RingBuffer
import InfinityOS.Kernel.Trace
import InfinityOS.Text.Masking
import InfinityOS.Security.Redaction
import InfinityOS.Graph.ExecutionStates
import InfinityOS.Graph.Relations
import InfinityOS.Graph.Validation
import InfinityOS.Registry.Blocks
import InfinityOS.Graph.Communicator
import InfinityOS.Registry.Staging
import InfinityOS.Flow.Control
import InfinityOS.Pipeline.Versions
import InfinityOS.Canvas.Collaboration
import InfinityOS.Quality.Gates
import InfinityOS.Quality.Readiness
import InfinityOS.Quality.Contract
import InfinityOS.Paths.Depth
import InfinityOS.Paths.Release
import InfinityOS.Graph.Layers
import InfinityOS.Graph.Leftover
import InfinityOS.Graph.Admission
import InfinityOS.Graph.Atomicity
import InfinityOS.Kernel.HeapBlock
import InfinityOS.Kernel.Admission
import InfinityOS.Kernel.Capacity
import InfinityOS.Scheduler.Dispatch
import InfinityOS.Scheduler.Rewrite
import InfinityOS.Scheduler.Attempts
import InfinityOS.Scheduler.Backlog
import InfinityOS.Scheduler.Lease
import InfinityOS.Scheduler.Backoff
import InfinityOS.Scheduler.Merge
import InfinityOS.Mesh.Garbage
import InfinityOS.Mesh.Monotone
import InfinityOS.Mesh.Failure
import InfinityOS.Text.Decimal
import InfinityOS.Mesh.Version
import InfinityOS.Core.Checks
import InfinityOS.Registry.ActionLog
import InfinityOS.Graph.Sample
import InfinityOS.Graph.Contract
import InfinityOS.Graph.ContractView
import InfinityOS.Flow.Visits
import InfinityOS.Pipeline.Schema
import InfinityOS.Editor.Customize
import InfinityOS.Instance.Expansion
import InfinityOS.ModelRuntime.Performance
import InfinityOS.ModelRuntime.ReplicaPlan
import InfinityOS.ModelRuntime.ReplicaPool
import InfinityOS.ModelRuntime.ReplicaAccounting
import InfinityOS.ModelRuntime.ReplicaCeiling
import InfinityOS.Security.SandboxAudit
import InfinityOS.Security.Signing
import InfinityOS.Kernel.TaskIdOrder
import InfinityOS.Text.Hex
import InfinityOS.Kernel.TaskIdText
import InfinityOS.Kernel.Timers
import InfinityOS.Kernel.TraceLifecycle
import InfinityOS.Kernel.Boot
import InfinityOS.Kernel.Replication
import InfinityOS.Core.LockInvariant
import InfinityOS.Kernel.ServiceIdentity
import InfinityOS.Execution.TaskAllocator
import InfinityOS.ModelRuntime.ReloadCooldown
import InfinityOS.Graph.WireFormat
import InfinityOS.Text.Joined
import InfinityOS.Canvas.FieldKeys
import InfinityOS.Text.Base64
import InfinityOS.Quality.Corpus
import InfinityOS.Core.OrderStatistics
import InfinityOS.Reliability.Slo
import InfinityOS.Reliability.Incidents
import InfinityOS.Reliability.FlapSuppression
import InfinityOS.Kernel.ServiceRestart
import InfinityOS.Canvas.UndoStack
import InfinityOS.Canvas.Focus
import InfinityOS.Reliability.Regression
import InfinityOS.Reliability.Chaos
import InfinityOS.Canvas.Distribute
import InfinityOS.Reliability.Dashboard
