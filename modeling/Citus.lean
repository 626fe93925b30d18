import Citus.Lib.Bisection
import Citus.Lib.FiniteDescent
import Citus.Lib.MachineInt
import Citus.Lib.Run
import Citus.Lib.Worklist
import Citus.Lib.Tiling
import Citus.Lib.ChainPath
import Citus.Lib.ListUpdate
import Citus.Shard.Interval
import Citus.Shard.HashRange
import Citus.Shard.Routing
import Citus.Shard.Clause
import Citus.Shard.PruningTree
import Citus.Shard.PruningInstance
import Citus.Shard.Pruning
import Citus.Shard.BoundaryPruning
import Citus.Planner.RestrictionEquivalence
import Citus.Clock.CausalClock
import Citus.Background.TaskQueue
import Citus.Connection.SharedConnections
import Citus.Connection.PlacementConnection
import Citus.Lib.Bitmap
import Citus.Columnar.Datum
import Citus.Columnar.ItemPointer
import Citus.Columnar.RowNumbers
import Citus.Columnar.ChunkGroupFilter
import Citus.Columnar.Storage
import Citus.Columnar.StorageRuns
import Citus.Columnar.ChunkData
import Citus.Executor.PlacementFailover
import Citus.Executor.TwoPhaseCommit
import Citus.Operations.ShardCleaner
import Citus.Operations.ShardSplit
import Citus.Transaction.Recovery
import Citus.Transaction.DeadlockDetection
import Citus.Rebalancer.Model
import Citus.Rebalancer.Placement
import Citus.Rebalancer.Invariant
import Citus.Rebalancer.Phases
import Citus.Rebalancer.Executable
import Citus.Rebalancer.Termination
import Citus.Rebalancer.Improvement
import Citus.Rebalancer.Replication
import Citus.Rebalancer.Background
import Citus.Worker.SequenceRange
import Citus.Transaction.RelationAccess
import Citus.Lib.PeriodWindow
import Citus.Tenant.Stats
import Citus.Lib.JsonText
import Citus.Tenant.Annotation
import Citus.Rebalancer.StateInvariant
import Citus.Background.DependencySafety
import Citus.Connection.CounterConservation
import Citus.Operations.CleanupSafety
import Citus.Shard.PruningMeaning
import Citus.Shard.PruningWalk
