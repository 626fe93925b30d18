import Mathlib

/-!
# Cleanup of orphaned resources

Operations that create resources on workers, such as shard moves and splits,
record them in `pg_dist_cleanup` (`shard_cleaner.c`). A record's policy says when
its resource is dropped: always once the operation ends (`CLEANUP_ALWAYS`), if the
operation fails (`CLEANUP_ON_FAILURE`), or once the operation has committed
(`CLEANUP_DEFERRED_ON_SUCCESS`, the old placements of a move). The first two kinds
of record are inserted through a separate connection and so committed at once; a
deferred record is inserted in the operation's own transaction. Every operation
holds a transaction-level advisory lock on its operation id, and a cleaner
(`DropOrphanedResourcesForCleanup`) skips the records of operations whose lock it
cannot take.

The advisory lock is reentrant. A cleaner that runs in the operation's own
transaction (`citus_cleanup_orphaned_resources` called later in the same `DO`
block) takes the lock, sees the transaction's own uncommitted deferred records,
and drops their resources through a separate connection before the operation has
committed (`dropOrphanedResourcesForCleanup_in_operation_transaction`).

## Implementation notes

Rows of `pg_dist_cleanup` are versions with the transaction that inserted them and
the one that deleted them; a transaction sees the rows inserted by itself or by a
committed transaction and not deleted by itself or by a committed transaction. A
command sent through a separate connection runs in a new transaction that commits
at once. Dropping a resource through such a connection is recorded in a log with
the state of the operation's transaction at that moment. The nodes of the records
are not modelled (every group has a primary), nor are the notices; whether a drop
succeeds is an input.
-/

namespace Citus.Operations

/-- `CleanupPolicy`. -/
inductive CleanupPolicy
  | always
  | onFailure
  | deferredOnSuccess
  deriving DecidableEq, Repr

/-- A `pg_dist_cleanup` record; the resource is named by `objectName`. -/
structure CleanupRecord where
  recordId : Nat
  operationId : Nat
  objectType : Nat
  objectName : Nat
  policy : CleanupPolicy
  deriving DecidableEq, Repr

/-- A version of a `pg_dist_cleanup` row: the transactions that inserted and deleted it. -/
structure CleanupTuple where
  record : CleanupRecord
  xmin : Nat
  xmax : Option Nat
  deriving DecidableEq, Repr

/-- The state of a transaction. -/
inductive TransactionStatus
  | inProgress
  | committed
  | aborted
  deriving DecidableEq, Repr

/-- A resource drop through a separate connection: the record, the transaction of
the cleaner that dropped it (none for the operation's own finalization), and the
state of the operation's transaction at that moment. -/
structure DroppedResource where
  record : CleanupRecord
  cleaner : Option Nat
  operationStatus : TransactionStatus
  deriving DecidableEq, Repr

/-- The coordinator's state: the transactions by id, the rows of
`pg_dist_cleanup`, the advisory locks on operation ids with their holders, the
operation each transaction registered (`CurrentOperationId`), and the drops. -/
structure CleanupState where
  transactions : List TransactionStatus
  pgDistCleanup : List CleanupTuple
  operationLocks : List (Nat × Nat)
  currentOperationId : List (Nat × Nat)
  nextOperationId : Nat
  nextCleanupRecordId : Nat
  dropped : List DroppedResource
  deriving DecidableEq, Repr

namespace CleanupState

variable (state : CleanupState)

/-- The state of a transaction; an id never begun reads as in progress. -/
def status (transactionId : Nat) : TransactionStatus :=
  state.transactions.getD transactionId .inProgress

/-- A transaction's view of a row version. -/
def visibleTo (transactionId : Nat) (tuple : CleanupTuple) : Bool :=
  (tuple.xmin == transactionId || state.status tuple.xmin == .committed) &&
    match tuple.xmax with
    | none => true
    | some deleter => !(deleter == transactionId || state.status deleter == .committed)

/-- The transaction that registered an operation. -/
def operationTransaction (operationId : Nat) : Option Nat :=
  (state.currentOperationId.find? (·.2 == operationId)).map (·.1)

/-- A new transaction, in progress. -/
def beginTransaction : CleanupState × Nat :=
  ({ state with transactions := state.transactions ++ [.inProgress] }, state.transactions.length)

/-- A command through a separate connection: a transaction that commits at once. -/
def outsideTransaction : CleanupState × Nat :=
  ({ state with transactions := state.transactions ++ [.committed] }, state.transactions.length)

/-- A resource drop through a separate connection. -/
def dropResource (record : CleanupRecord) (cleaner : Option Nat) : CleanupState :=
  let operationStatus := match state.operationTransaction record.operationId with
    | some transactionId => state.status transactionId
    | none => .committed
  { state with dropped := state.dropped ++ [⟨record, cleaner, operationStatus⟩] }

/-- A deletion by `transactionId` of the version of a record it sees. -/
def deleteRecord (transactionId recordId : Nat) : CleanupState :=
  { state with
    pgDistCleanup := state.pgDistCleanup.map fun tuple =>
      if tuple.record.recordId == recordId && state.visibleTo transactionId tuple then
        { tuple with xmax := some transactionId }
      else tuple }

/-- The end of a transaction, which releases its advisory locks. -/
def endTransaction (transactionId : Nat) (status : TransactionStatus) : CleanupState :=
  { state with
    transactions := state.transactions.set transactionId status
    operationLocks := state.operationLocks.filter (·.2 != transactionId) }

end CleanupState

open CleanupState

/-- `ListCleanupRecords`, as the transaction sees the table. -/
def listCleanupRecords (state : CleanupState) (transactionId : Nat) : List CleanupRecord :=
  (state.pgDistCleanup.filter (state.visibleTo transactionId)).map (·.record)

/-- `CleanupRecordExists`, as the transaction sees the table. -/
def cleanupRecordExists (state : CleanupState) (transactionId recordId : Nat) : Bool :=
  (listCleanupRecords state transactionId).any (·.recordId == recordId)

/-- `TryLockOperationId`: the lock is taken unless another transaction holds it;
advisory locks are reentrant. -/
def tryLockOperationId (state : CleanupState) (transactionId operationId : Nat) :
    Option CleanupState :=
  match state.operationLocks.find? (·.1 == operationId) with
  | some (_, holder) => if holder == transactionId then some state else none
  | none => some { state with operationLocks := state.operationLocks ++ [(operationId, transactionId)] }

/-- `CompareCleanupRecordsByObjectType`, as the order `SortList` leaves. -/
def sortCleanupRecordsByObjectType (records : List CleanupRecord) : List CleanupRecord :=
  records.insertionSort fun left right => left.objectType ≤ right.objectType

/-- One record of the loop of `DropOrphanedResourcesForCleanup`, in transaction
`transactionId`; `tryDrop` says whether the drop through a separate connection
succeeds. -/
def dropOrphanedResource (tryDrop : CleanupRecord → Bool) (transactionId : Nat)
    (state : CleanupState) (record : CleanupRecord) : CleanupState :=
  match tryLockOperationId state transactionId record.operationId with
  -- the operation that the record is part of is still running
  | none => state
  | some state =>
      -- the operation may have completed since the records were listed
      if !cleanupRecordExists state transactionId record.recordId then state
      else if tryDrop record then
        (state.dropResource record (some transactionId)).deleteRecord transactionId
          record.recordId
      else state

/-- `DropOrphanedResourcesForCleanup` in transaction `transactionId`. -/
def dropOrphanedResourcesForCleanup (tryDrop : CleanupRecord → Bool) (transactionId : Nat)
    (state : CleanupState) : CleanupState :=
  (sortCleanupRecordsByObjectType (listCleanupRecords state transactionId)).foldl
    (dropOrphanedResource tryDrop transactionId) state

/-- `RegisterOperationNeedingCleanup` in transaction `transactionId`: a new
operation id, locked by the transaction; `none` while another transaction holds the
lock, for which `LockOperationId` waits. -/
def registerOperationNeedingCleanup (transactionId : Nat) (state : CleanupState) :
    Option CleanupState :=
  let operationId := state.nextOperationId
  let state := { state with
    nextOperationId := operationId + 1
    currentOperationId := state.currentOperationId ++ [(transactionId, operationId)] }
  tryLockOperationId state transactionId operationId

/-- The operation transaction `transactionId` registered last. -/
def currentOperationOf (state : CleanupState) (transactionId : Nat) : Option Nat :=
  ((state.currentOperationId.filter (·.1 == transactionId)).getLast?).map (·.2)

/-- A new record of the current operation, inserted by transaction `xmin`. -/
def insertCleanupRecord (state : CleanupState) (operationId objectType objectName : Nat)
    (policy : CleanupPolicy) (xmin : Nat) : CleanupState :=
  { state with
    nextCleanupRecordId := state.nextCleanupRecordId + 1
    pgDistCleanup := state.pgDistCleanup ++
      [⟨⟨state.nextCleanupRecordId, operationId, objectType, objectName, policy⟩, xmin, none⟩] }

/-- `InsertCleanupOnSuccessRecordInCurrentTransaction`. -/
def insertCleanupOnSuccessRecordInCurrentTransaction (transactionId objectType objectName : Nat)
    (state : CleanupState) : Option CleanupState :=
  (currentOperationOf state transactionId).map fun operationId =>
    insertCleanupRecord state operationId objectType objectName .deferredOnSuccess transactionId

/-- `InsertCleanupRecordOutsideTransaction`, for `CLEANUP_ALWAYS` and
`CLEANUP_ON_FAILURE`: the insert commits at once through a separate connection. -/
def insertCleanupRecordOutsideTransaction (transactionId objectType objectName : Nat)
    (policy : CleanupPolicy) (state : CleanupState) : Option CleanupState :=
  (currentOperationOf state transactionId).map fun operationId =>
    let (state, outside) := state.outsideTransaction
    insertCleanupRecord state operationId objectType objectName policy outside

/-- One record of `FinalizeOperationNeedingCleanupOnSuccess`: a `CLEANUP_ALWAYS`
resource is dropped and its record deleted through separate connections; a
`CLEANUP_ON_FAILURE` record is deleted in the operation's transaction. -/
def finalizeCleanupRecord (tryDrop : CleanupRecord → Bool) (transactionId : Nat)
    (state : CleanupState) (record : CleanupRecord) : CleanupState :=
  match record.policy with
  | .always =>
      if tryDrop record then
        let state := state.dropResource record none
        let (state, outside) := state.outsideTransaction
        state.deleteRecord outside record.recordId
      else state
  | .onFailure => state.deleteRecord transactionId record.recordId
  | .deferredOnSuccess => state

/-- `FinalizeOperationNeedingCleanupOnSuccess` in transaction `transactionId`. -/
def finalizeOperationNeedingCleanupOnSuccess (tryDrop : CleanupRecord → Bool)
    (transactionId : Nat) (state : CleanupState) : Option CleanupState :=
  (currentOperationOf state transactionId).map fun operationId =>
    let currentOperationRecordList :=
      (listCleanupRecords state transactionId).filter (·.operationId == operationId)
    (sortCleanupRecordsByObjectType currentOperationRecordList).foldl
      (finalizeCleanupRecord tryDrop transactionId) state

/-- What happens on the coordinator. -/
inductive CleanupEvent
  | begin
  | registerOperation (transactionId : Nat)
  | insertOnSuccess (transactionId objectType objectName : Nat)
  | insertOutsideTransaction (transactionId objectType objectName : Nat) (policy : CleanupPolicy)
  | finalizeOnSuccess (transactionId : Nat)
  /-- A cleaner in transaction `transactionId`: the maintenance daemon, the separate
  transaction of `DropOrphanedResourcesInSeparateTransaction`, or the caller of
  `citus_cleanup_orphaned_resources`. -/
  | dropOrphanedResources (transactionId : Nat)
  | commit (transactionId : Nat)
  | abort (transactionId : Nat)

/-- One event; `none` when it cannot happen in the state. -/
def cleanupStep (tryDrop : CleanupRecord → Bool) (state : CleanupState) :
    CleanupEvent → Option CleanupState
  | .begin => some state.beginTransaction.1
  | .registerOperation transactionId => registerOperationNeedingCleanup transactionId state
  | .insertOnSuccess transactionId objectType objectName =>
      insertCleanupOnSuccessRecordInCurrentTransaction transactionId objectType objectName state
  | .insertOutsideTransaction transactionId objectType objectName policy =>
      insertCleanupRecordOutsideTransaction transactionId objectType objectName policy state
  | .finalizeOnSuccess transactionId =>
      finalizeOperationNeedingCleanupOnSuccess tryDrop transactionId state
  | .dropOrphanedResources transactionId =>
      some (dropOrphanedResourcesForCleanup tryDrop transactionId state)
  | .commit transactionId => some (state.endTransaction transactionId .committed)
  | .abort transactionId => some (state.endTransaction transactionId .aborted)

/-- A sequence of events. -/
def runCleanupEvents (tryDrop : CleanupRecord → Bool) (events : List CleanupEvent)
    (state : CleanupState) : Option CleanupState :=
  events.foldlM (cleanupStep tryDrop) state

/-- The coordinator before any operation. -/
def initialCleanupState : CleanupState :=
  ⟨[], [], [], [], 1, 1, []⟩


/-- A move in one transaction (a `DO` block) registers its operation, records the
old placement `7` for deferred drop and finalizes; `citus_cleanup_orphaned_resources`
later in the same block then drops placement `7` while the operation's
transaction is still in progress, and the transaction aborts. -/
theorem dropOrphanedResourcesForCleanup_in_operation_transaction :
    ∃ state, runCleanupEvents (fun _ => true)
        [.begin, .registerOperation 0, .insertOnSuccess 0 1 7, .finalizeOnSuccess 0,
          .dropOrphanedResources 0, .abort 0] initialCleanupState = some state ∧
      ⟨⟨1, 1, 1, 7, .deferredOnSuccess⟩, some 0, .inProgress⟩ ∈ state.dropped ∧
      state.status 0 = .aborted := by
  refine ⟨_, rfl, ?_, ?_⟩ <;> decide

end Citus.Operations
