import Citus.Lib.Run
import Mathlib

/-!
# When a transaction block commits with two-phase commit

A coordinated transaction prepares its remote transactions before committing them only
when `ShouldCoordinatedTransactionUse2PC` is set by the time the pre-commit callback runs
(`CoordinatedTransactionCallback`, `transaction_management.c`). The adaptive executor sets
it from three places (`adaptive_executor.c`, `executor_util_tasks.c`): when a statement's
task list needs it (`DecideTransactionPropertiesForTaskList`, `TaskListRequires2PC`),
which leaves single-task, single-placement writes on one-phase commit; when the local
executor writes; and when a session opens a remote transaction block on a connection for
a writing statement after the transaction already wrote
(`Activate2PCIfModifyingTransactionExpandsToNewNode`).

The last check runs only where a remote transaction block is opened, or for sessions
pre-assigned to the connection that accessed a co-located placement. A connection that
an earlier read of the transaction block already moved into a remote transaction is
reused by a worker pool for a write to a placement not accessed before, without the
check; a block that reads on one worker, writes on a second and then writes on the first
commits both writes with one-phase commit (`shouldCoordinatedTransactionUse2PC_misses_reused_connection`).

## Implementation notes

* Statements run one after another, each to completion. A read task runs on its first
  placement and a writing task on all of them. A placement execution that no earlier
  access assigns to a connection takes a session of its own: the first connection to its
  node that this statement has not claimed yet, or a new one.
* Function calls are not modelled, so `IsMultiStatementTransaction` is
  `IsTransactionBlock`.
* Placements are those of hash-distributed tables: accesses are recorded per co-located
  placement group on a node (`ColocatedPlacementsHashKey`). The errors of
  `FindPlacementListConnection` for conflicting accesses are not modelled.
-/

namespace Citus.Executor

/-- `TaskType`, by what `ReadOnlyTask` tells apart. -/
inductive TaskType
  | readTask
  | modifyTask
  | ddlTask
  deriving DecidableEq, Repr

/-- `ReadOnlyTask`. -/
def readOnlyTask : TaskType → Bool
  | .readTask => true
  | .modifyTask | .ddlTask => false

/-- `RowModifyLevel`. -/
inductive RowModifyLevel
  | readonly
  | commutative
  | nonCommutative
  deriving DecidableEq, Repr

/-- A `ShardPlacement` of a hash-distributed table, with the key of its co-located
placements. -/
structure ShardPlacement where
  nodeId : Nat
  colocationGroupId : Nat
  representativeValue : Int
  deriving DecidableEq, Repr

/-- A `Task`, by the fields the transaction decisions read. -/
structure Task where
  taskType : TaskType
  taskPlacementList : List ShardPlacement
  queryCount : Nat
  selectForUpdate : Bool
  cannotBeExecutedInTransaction : Bool
  deriving DecidableEq, Repr

/-- `TransactionBlocksUsage`. -/
inductive TransactionBlocksUsage
  | allowed
  | required
  | disallowed
  deriving DecidableEq, Repr

/-- `TransactionProperties`. -/
structure TransactionProperties where
  errorOnAnyFailure : Bool
  useRemoteTransactionBlocks : TransactionBlocksUsage
  requires2PC : Bool
  deriving DecidableEq, Repr

/-- What the decisions read of the session: whether it is in a transaction block
(`IsTransactionBlock`, and so `IsMultiStatementTransaction`), whether the coordinated
transaction has started, and `citus.select_opens_transaction_block`. -/
structure SessionContext where
  isTransactionBlock : Bool
  inCoordinatedTransaction : Bool
  selectOpensTransactionBlock : Bool
  deriving DecidableEq, Repr

section Decisions

variable (session : SessionContext)

/-- `TaskListRequiresRollback`. -/
def taskListRequiresRollback (taskList : List Task) : Bool :=
  match taskList with
  | [] => false
  | task :: _ =>
      if task.cannotBeExecutedInTransaction then false
      else if task.selectForUpdate then session.isTransactionBlock
      else if readOnlyTask task.taskType then
        session.selectOpensTransactionBlock && session.isTransactionBlock
      else if session.isTransactionBlock then true
      else if taskList.length > 1 then true
      else if task.taskPlacementList.length > 1 then true
      else task.queryCount > 1

/-- `TaskListRequires2PC`: writes need it unless they are one task on one placement. -/
def taskListRequires2PC (taskList : List Task) : Bool :=
  match taskList with
  | [] => false
  | task :: _ =>
      if readOnlyTask task.taskType then false
      else !(taskList.length = 1 ∧ task.taskPlacementList.length = 1)

/-- `TaskListCannotBeExecutedInTransaction`. -/
def taskListCannotBeExecutedInTransaction (taskList : List Task) : Bool :=
  taskList.any (·.cannotBeExecutedInTransaction)

/-- `DecideTransactionPropertiesForTaskList`. -/
def decideTransactionPropertiesForTaskList (taskList : List Task) (excludeFromTransaction : Bool) :
    TransactionProperties :=
  if taskList.isEmpty then ⟨false, .allowed, false⟩
  else if excludeFromTransaction then ⟨false, .disallowed, false⟩
  else if taskListCannotBeExecutedInTransaction taskList then ⟨true, .disallowed, false⟩
  else if taskListRequiresRollback session taskList then
    if taskListRequires2PC taskList then ⟨true, .required, true⟩ else ⟨false, .required, false⟩
  else if session.inCoordinatedTransaction then ⟨false, .required, false⟩
  else ⟨false, .allowed, false⟩

end Decisions

/-- `TaskListModifiesDatabase`. -/
def taskListModifiesDatabase (modLevel : RowModifyLevel) (taskList : List Task) : Bool :=
  if modLevel ≠ .readonly then true
  else
    match taskList with
    | [] => false
    | task :: _ => !readOnlyTask task.taskType

/-- `RemoteTransactionState` between statements: whether `BEGIN` was sent. -/
inductive RemoteTransactionState
  | notStarted
  | started
  deriving DecidableEq, Repr

/-- A connection of the session, with the placements it accessed in the transaction
(`referencedPlacements`), each with whether it wrote to them. -/
structure RemoteConnection where
  nodeId : Nat
  transactionState : RemoteTransactionState
  referencedPlacements : List (ShardPlacement × Bool)
  deriving DecidableEq, Repr

/-- `ConnectionModifiedPlacement`. -/
def connectionModifiedPlacement (connection : RemoteConnection) : Bool :=
  if connection.transactionState = .notStarted then false
  else if connection.referencedPlacements.isEmpty then true
  else connection.referencedPlacements.any (·.2)

/-- The coordinator's transaction block: its connections, the coordinated transaction,
`XactModificationLevel`, `ShouldCoordinatedTransactionUse2PC`, and whether the local
executor wrote. -/
structure CoordinatorTransaction where
  isTransactionBlock : Bool
  selectOpensTransactionBlock : Bool
  inCoordinatedTransaction : Bool
  xactModificationData : Bool
  shouldCoordinatedTransactionUse2PC : Bool
  connections : List RemoteConnection
  localExecutionModified : Bool
  deriving DecidableEq, Repr

/-- The session as the decisions see it. -/
def CoordinatorTransaction.sessionContext (transaction : CoordinatorTransaction) : SessionContext :=
  ⟨transaction.isTransactionBlock, transaction.inCoordinatedTransaction,
    transaction.selectOpensTransactionBlock⟩

/-- The connection that accessed the co-located placements of a placement in the
transaction (`GetConnectionIfPlacementAccessedInXact`). -/
def getConnectionIfPlacementAccessedInXact (connections : List RemoteConnection)
    (placement : ShardPlacement) : Option Nat :=
  connections.findIdx? fun connection => connection.referencedPlacements.any (·.1 == placement)

/-- The connection a pool takes for a task on a node: the first connection to the node
not claimed by this statement that the transaction blocks allow, or a new one
(`FindAvailableConnection`, `OpenNewConnections`). -/
def findAvailableConnection (connections : List RemoteConnection) (claimed : List Nat)
    (useRemoteTransactionBlocks : TransactionBlocksUsage) (nodeId : Nat) :
    List RemoteConnection × Nat :=
  match (List.range connections.length).find? fun index =>
      index ∉ claimed && (connections[index]?.map fun connection =>
        connection.nodeId == nodeId &&
          (useRemoteTransactionBlocks != .disallowed || connection.transactionState == .notStarted)) ==
        some true with
  | some index => (connections, index)
  | none => (connections ++ [⟨nodeId, .notStarted, []⟩], connections.length)

/-- `Activate2PCIfModifyingTransactionExpandsToNewNode`. -/
def activate2PCIfModifyingTransactionExpandsToNewNode (transaction : CoordinatorTransaction)
    (properties : TransactionProperties) (modifiesDatabase : Bool) (connection : RemoteConnection) :
    CoordinatorTransaction :=
  if properties.useRemoteTransactionBlocks = .required ∧ transaction.xactModificationData ∧
      modifiesDatabase ∧ !connectionModifiedPlacement connection then
    { transaction with shouldCoordinatedTransactionUse2PC := true }
  else transaction

/-- The connection a placement execution is assigned to when the statement starts
because it accessed the co-located placements before (`AssignTasksToConnectionsOrWorkerPool`). -/
def assignedConnection (properties : TransactionProperties) (connections : List RemoteConnection)
    (placement : ShardPlacement) : Option Nat :=
  if properties.useRemoteTransactionBlocks ≠ .disallowed then
    getConnectionIfPlacementAccessedInXact connections placement
  else none

/-- `AssignTasksToConnectionsOrWorkerPool`: every placement of every task that has an
assigned session checks for 2PC on that session's connection, before anything runs. -/
def assignTasksToConnectionsOrWorkerPool (properties : TransactionProperties) (modifiesDatabase : Bool)
    (transaction : CoordinatorTransaction) (taskList : List Task) : CoordinatorTransaction :=
  (taskList.flatMap (·.taskPlacementList)).foldl
    (fun transaction placement =>
      match (assignedConnection properties transaction.connections placement).bind
          (transaction.connections[·]?) with
      | some connection =>
          activate2PCIfModifyingTransactionExpandsToNewNode transaction properties modifiesDatabase
            connection
      | none => transaction)
    transaction

/-- One placement execution: on its assigned connection, or on one its worker pool finds
or opens. A connection in `REMOTE_TRANS_NOT_STARTED` opens its remote transaction block
when blocks are required, and checks for 2PC first (`TransactionStateMachine`); the
placement access is recorded unless blocks are disallowed
(`StartPlacementExecutionOnSession`). -/
def executePlacement (properties : TransactionProperties) (modifiesDatabase : Bool)
    (assignedConnections : List RemoteConnection) (task : Task)
    (state : CoordinatorTransaction × List Nat) (placement : ShardPlacement) :
    CoordinatorTransaction × List Nat :=
  let (transaction, claimed) := state
  let (connections, index) := match assignedConnection properties assignedConnections placement with
    | some index => (transaction.connections, index)
    | none => findAvailableConnection transaction.connections claimed
        properties.useRemoteTransactionBlocks placement.nodeId
  let transaction := { transaction with connections }
  match connections[index]? with
  | none => (transaction, claimed)
  | some connection =>
      let transaction :=
        if connection.transactionState = .notStarted ∧ properties.useRemoteTransactionBlocks = .required then
          activate2PCIfModifyingTransactionExpandsToNewNode transaction properties modifiesDatabase
            connection
        else transaction
      let connection := { connection with
        transactionState :=
          if properties.useRemoteTransactionBlocks = .required then .started
          else connection.transactionState
        referencedPlacements :=
          if properties.useRemoteTransactionBlocks ≠ .disallowed then
            connection.referencedPlacements ++ [(placement, !readOnlyTask task.taskType)]
          else connection.referencedPlacements }
      ({ transaction with connections := connections.set index connection }, claimed ++ [index])

/-- The placements a task runs on: the first for a read, all for a write. -/
def executedPlacements (task : Task) : List ShardPlacement :=
  if readOnlyTask task.taskType then task.taskPlacementList.take 1 else task.taskPlacementList

/-- A statement run by the adaptive executor: `DecideTransactionPropertiesForTaskList`,
`StartDistributedExecution`, the assignment of tasks, the placement executions and
`FinishDistributedExecution`. -/
def executeDistributedStatement (transaction : CoordinatorTransaction) (modLevel : RowModifyLevel)
    (taskList : List Task) : CoordinatorTransaction :=
  let properties := decideTransactionPropertiesForTaskList transaction.sessionContext taskList false
  let transaction := { transaction with
    inCoordinatedTransaction :=
      transaction.inCoordinatedTransaction || properties.useRemoteTransactionBlocks = .required
    shouldCoordinatedTransactionUse2PC :=
      transaction.shouldCoordinatedTransactionUse2PC || properties.requires2PC }
  let modifiesDatabase := taskListModifiesDatabase modLevel taskList
  let assignedConnections := transaction.connections
  let transaction :=
    assignTasksToConnectionsOrWorkerPool properties modifiesDatabase transaction taskList
  let (transaction, _) := taskList.foldl
    (fun state task =>
      (executedPlacements task).foldl
        (executePlacement properties modifiesDatabase assignedConnections task) state)
    (transaction, [])
  if modifiesDatabase then { transaction with xactModificationData := true } else transaction

/-- A statement of the transaction block. -/
inductive Statement
  | distributed (modLevel : RowModifyLevel) (taskList : List Task)
  /-- The local executor runs tasks; a write sets 2PC. -/
  | localExecution (modifies : Bool)

/-- One statement. -/
def executeStatement (transaction : CoordinatorTransaction) : Statement → CoordinatorTransaction
  | .distributed modLevel taskList => executeDistributedStatement transaction modLevel taskList
  | .localExecution modifies =>
      if modifies then
        { transaction with shouldCoordinatedTransactionUse2PC := true, localExecutionModified := true }
      else transaction

/-- A `BEGIN` with the default settings. -/
def beginTransaction : CoordinatorTransaction := ⟨true, true, false, false, false, [], false⟩

/-- The remote transactions of the block that wrote: connections in a remote transaction
block with a placement access that wrote. -/
def modifyingConnectionCount (transaction : CoordinatorTransaction) : Nat :=
  transaction.connections.countP fun connection =>
    connection.transactionState == .started && connection.referencedPlacements.any (·.2)

/-- A single-shard task on one placement. -/
def singlePlacementTask (taskType : TaskType) (placement : ShardPlacement) : Task :=
  ⟨taskType, [placement], 1, false, false⟩

/-- A read on worker `1`, in co-location group `1`; a write on worker `2`; a write on
worker `1` in co-location group `2`. -/
def readThenWriteTwoNodes : List Statement :=
  [.distributed .readonly [singlePlacementTask .readTask ⟨1, 1, 0⟩],
    .distributed .nonCommutative [singlePlacementTask .modifyTask ⟨2, 1, 0⟩],
    .distributed .nonCommutative [singlePlacementTask .modifyTask ⟨1, 2, 0⟩]]

theorem shouldCoordinatedTransactionUse2PC_misses_reused_connection :
    ∃ transaction, readThenWriteTwoNodes.foldl executeStatement beginTransaction = transaction ∧
      transaction.connections.length = 2 ∧ modifyingConnectionCount transaction = 2 ∧
      transaction.inCoordinatedTransaction = true ∧
      transaction.shouldCoordinatedTransactionUse2PC = false :=
  ⟨_, rfl, by decide⟩

end Citus.Executor
