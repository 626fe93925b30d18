import Citus.Lib.Run
import Citus.Operations.ShardCleaner

/-!
# Recovery of prepared transactions

A distributed transaction that writes on a worker over two-phase commit inserts a
`pg_dist_transaction` record in its local transaction on the coordinator
(`LogTransactionRecord`), prepares its remote transaction on the worker, commits or
aborts locally, and then commits or rolls back the prepared transaction. A record
that becomes visible thus says that the prepared transaction is to be committed.
`RecoverWorkerTransactions` (`transaction_recovery.c`) finishes what such
transactions left prepared on a worker. It takes no lock against them, and reads
four observations in a fixed order instead: the worker's prepared transactions
`P`, the distributed transactions still in progress `A`, a snapshot `T` of the
records, and the prepared transactions again `Q`. It commits what has a record and
was prepared in both observations, deletes records whose prepared transaction is
gone, and rolls back what is left of `P`.

The model is one coordinator and one worker. Every step of the distributed
transactions and of recovery is an event, and any interleaving of them is a list of
events. `recoverWorkerTransactions_safe` states for every run: recovery commits
only transactions that committed, rolls back only transactions that aborted, and
never deletes the record of a transaction still prepared on the worker.

## Implementation notes

* A prepared transaction's name is reduced to the two numbers that
  `ParsePreparedTransactionName` reads back. A distributed transaction's local
  transaction is identified by its transaction number, so a record is visible to
  recovery's snapshot once the transaction that inserted it has committed.
* A transaction started from another database (`start_management_transaction`)
  records that outer transaction's id; its prepared transactions are committed by
  `COMMIT_MANAGEMENT_COMMAND_2PC` once the outer transaction has committed.
* `ActiveDistributedTransactionNumbers` reads each backend once and
  `TransactionIdIsInProgress` / `TransactionIdDidCommit` read the outer transaction
  one after the other. The model reads each at one instant: a transaction the real
  reads see as finished was finished at the instant its slot was read, and a
  status that changes between the two reads of the outer transaction gives a branch
  that a read at one of the two instants gives too.
* Recovery's deletions take effect at once; only recovery reads the records, and
  recovery does not run twice at the same time (`LockTransactionRecovery`).
* The group id of the records and the count of recovered transactions are not
  modelled.
-/

namespace Citus.Transaction

open Citus.Operations (TransactionStatus)

/-- The parts of a prepared transaction's name, `citus_<group>_<pid>_<number>_<connection>`,
that `ParsePreparedTransactionName` reads back. -/
structure PreparedTransactionName where
  transactionNumber : Nat
  connectionNumber : Nat
  deriving DecidableEq, Repr

/-- A `pg_dist_transaction` row of the worker's group, as `LogTransactionRecord`
inserts it; `outerXid` is `0` for a transaction of the main database. -/
structure TransactionRecord where
  gid : PreparedTransactionName
  outerXid : Nat
  deriving DecidableEq, Repr

/-- A distributed transaction started by the coordinator: the state of its local
transaction and its outer transaction (`OuterXid`). -/
structure DistributedTransaction where
  status : TransactionStatus
  outerXid : Nat
  deriving DecidableEq, Repr

/-- How a `COMMIT PREPARED` or `ROLLBACK PREPARED` sent by recovery ends. -/
inductive CommandOutcome
  /-- The worker ran it and replied. -/
  | succeeded
  /-- The worker did not run it. -/
  | notRun
  /-- The worker ran it, but the reply was lost. -/
  | replyLost
  deriving DecidableEq, Repr

/-- Where `RecoverWorkerTransactions` is, with what it has observed so far. -/
inductive RecoveryPhase
  | idle
  /-- After `PendingWorkerTransactionList`. -/
  | pendingObserved (pendingTransactionSet : List PreparedTransactionName)
  /-- After `ActiveDistributedTransactionNumbers`. -/
  | activeObserved (pendingTransactionSet : List PreparedTransactionName)
      (activeTransactionNumberSet : List Nat)
  /-- After `systable_beginscan`: the records the snapshot shows. -/
  | snapshotTaken (pendingTransactionSet : List PreparedTransactionName)
      (activeTransactionNumberSet : List Nat) (snapshot : List TransactionRecord)
  /-- After the second `PendingWorkerTransactionList`, in the loop over the records
  not scanned yet. -/
  | scanning (pendingTransactionSet : List PreparedTransactionName)
      (activeTransactionNumberSet : List Nat) (snapshot : List TransactionRecord)
      (recheckTransactionSet : List PreparedTransactionName)
  /-- In the loop that rolls back what is left of the pending set. -/
  | abortingPending (pendingTransactionSet : List PreparedTransactionName)
      (activeTransactionNumberSet : List Nat)
  deriving DecidableEq, Repr

/-- The coordinator and the worker, with the commands recovery has sent. -/
structure ClusterState where
  /-- The distributed transactions by transaction number. -/
  transactions : Nat → Option DistributedTransaction
  /-- The outer transactions by transaction id. -/
  outerTransactions : Nat → TransactionStatus
  /-- The transaction numbers `ActiveDistributedTransactionNumbers` lists. -/
  activeTransactionNumbers : List Nat
  pgDistTransaction : List TransactionRecord
  /-- The coordinator's prepared transactions on the worker (`pg_prepared_xacts`). -/
  preparedTransactions : List PreparedTransactionName
  recovery : RecoveryPhase
  /-- The prepared transactions recovery sent `COMMIT PREPARED` for. -/
  committedByRecovery : List PreparedTransactionName
  /-- The prepared transactions recovery sent `ROLLBACK PREPARED` for. -/
  rolledBackByRecovery : List PreparedTransactionName
  /-- The prepared transactions whose record recovery deleted. -/
  deletedByRecovery : List PreparedTransactionName

/-- Before any distributed transaction: every outer transaction id is still in
progress. -/
def initialClusterState : ClusterState :=
  ⟨fun _ => none, fun _ => .inProgress, [], [], [], .idle, [], [], []⟩

namespace ClusterState

variable (s : ClusterState)

/-- The state of a distributed transaction's local transaction. -/
def status (transactionNumber : Nat) : Option TransactionStatus :=
  (s.transactions transactionNumber).map (·.status)

/-- The end of a distributed transaction's local transaction. -/
def setStatus (transactionNumber : Nat) (status : TransactionStatus) : ClusterState :=
  { s with
    transactions := Function.update s.transactions transactionNumber
      ((s.transactions transactionNumber).map ({ · with status })) }

/-- `COMMIT PREPARED` or `ROLLBACK PREPARED` run on the worker. -/
def finishPrepared (gid : PreparedTransactionName) : ClusterState :=
  { s with preparedTransactions := s.preparedTransactions.filter (· ≠ gid) }

/-- The records a snapshot taken now shows. -/
def visibleRecords : List TransactionRecord :=
  s.pgDistTransaction.filter fun record =>
    s.status record.gid.transactionNumber = some .committed

/-- `simple_heap_delete` of a record by recovery. -/
def deleteRecord (record : TransactionRecord) : ClusterState :=
  { s with
    pgDistTransaction := s.pgDistTransaction.erase record
    deletedByRecovery := s.deletedByRecovery ++ [record.gid] }

/-- `RecoverPreparedTransactionOnWorker`: the command is recorded as sent, and the
worker runs it unless it did not arrive. -/
def recoverPreparedTransactionOnWorker (gid : PreparedTransactionName) (shouldCommit : Bool)
    (outcome : CommandOutcome) : ClusterState :=
  let s := if shouldCommit then { s with committedByRecovery := s.committedByRecovery ++ [gid] }
    else { s with rolledBackByRecovery := s.rolledBackByRecovery ++ [gid] }
  if outcome = .notRun then s else s.finishPrepared gid

/-- Recovery moves on to `phase`. -/
def setRecovery (phase : RecoveryPhase) : ClusterState :=
  { s with recovery := phase }

end ClusterState

open ClusterState

/-- `IsTransactionInProgress`. -/
def isTransactionInProgress (activeTransactionNumberSet : List Nat)
    (transactionName : PreparedTransactionName) : Bool :=
  transactionName.transactionNumber ∈ activeTransactionNumberSet

/-- One round of the loop of `RecoverWorkerTransactions` over the snapshot, for
`record`; the loop continues over `snapshot`. -/
def recoverRecord (s : ClusterState) (outcome : CommandOutcome)
    (pendingTransactionSet : List PreparedTransactionName) (activeTransactionNumberSet : List Nat)
    (record : TransactionRecord) (snapshot : List TransactionRecord)
    (recheckTransactionSet : List PreparedTransactionName) : ClusterState :=
  let transactionName := record.gid
  let continueWith (pendingTransactionSet : List PreparedTransactionName) (s : ClusterState) :=
    s.setRecovery (.scanning pendingTransactionSet activeTransactionNumberSet snapshot
      recheckTransactionSet)
  let outerXactIsInProgress := s.outerTransactions record.outerXid = .inProgress
  let outerXactDidCommit := s.outerTransactions record.outerXid = .committed
  -- do not touch in-progress transactions
  if isTransactionInProgress activeTransactionNumberSet transactionName then
    continueWith pendingTransactionSet s
  -- the outer transaction has not committed yet: neither commit nor abort
  else if record.outerXid ≠ 0 ∧ outerXactIsInProgress ∧ ¬outerXactDidCommit then
    continueWith (pendingTransactionSet.filter (· ≠ transactionName)) s
  -- the outer transaction aborted: leave the prepared transaction to be aborted
  else if record.outerXid ≠ 0 ∧ ¬outerXactIsInProgress ∧ ¬outerXactDidCommit then
    continueWith pendingTransactionSet s
  else
    let foundPreparedTransactionBeforeCommit := transactionName ∈ pendingTransactionSet
    let pendingTransactionSet := pendingTransactionSet.filter (· ≠ transactionName)
    let foundPreparedTransactionAfterCommit := transactionName ∈ recheckTransactionSet
    if foundPreparedTransactionBeforeCommit ∧ foundPreparedTransactionAfterCommit then
      let s := s.recoverPreparedTransactionOnWorker transactionName true outcome
      if outcome = .succeeded then continueWith pendingTransactionSet (s.deleteRecord record)
      -- stop; the pending set is not aborted
      else s.setRecovery .idle
    -- possibly still being committed by its own backend: leave it for the next run
    else if foundPreparedTransactionAfterCommit then continueWith pendingTransactionSet s
    else continueWith pendingTransactionSet (s.deleteRecord record)

/-- One round of the loop that aborts what is left of the pending set. -/
def abortPendingTransaction (s : ClusterState) (outcome : CommandOutcome)
    (pendingTransactionName : PreparedTransactionName)
    (pendingTransactionSet : List PreparedTransactionName) (activeTransactionNumberSet : List Nat) :
    ClusterState :=
  if isTransactionInProgress activeTransactionNumberSet pendingTransactionName then
    s.setRecovery (.abortingPending pendingTransactionSet activeTransactionNumberSet)
  else
    let s := s.recoverPreparedTransactionOnWorker pendingTransactionName false outcome
    if outcome = .succeeded then
      s.setRecovery (.abortingPending pendingTransactionSet activeTransactionNumberSet)
    else s.setRecovery .idle

/-- What happens on the coordinator and the worker. -/
inductive ClusterEvent
  /-- A backend starts a distributed transaction. -/
  | beginTransaction (transactionNumber outerXid : Nat)
  /-- `LogTransactionRecord`, at the start of `StartRemoteTransactionPrepare`. -/
  | logTransactionRecord (gid : PreparedTransactionName)
  /-- `PREPARE TRANSACTION` on the worker. -/
  | prepareTransaction (gid : PreparedTransactionName)
  | commitLocal (transactionNumber : Nat)
  | abortLocal (transactionNumber : Nat)
  /-- `COMMIT PREPARED` by the transaction's own backend after it committed, or by
  `COMMIT_MANAGEMENT_COMMAND_2PC` after the outer transaction committed. -/
  | commitPrepared (gid : PreparedTransactionName)
  /-- `ROLLBACK PREPARED` by the transaction's own backend after it aborted. -/
  | rollbackPrepared (gid : PreparedTransactionName)
  /-- `UnSetDistributedTransactionId`: the transaction is no longer listed. -/
  | endTransaction (transactionNumber : Nat)
  | commitOuter (outerXid : Nat)
  | abortOuter (outerXid : Nat)
  /-- Recovery's first `PendingWorkerTransactionList`. -/
  | observePending
  /-- Recovery's `ActiveDistributedTransactionNumbers`. -/
  | observeActive
  /-- Recovery's snapshot of `pg_dist_transaction`. -/
  | takeSnapshot
  /-- Recovery's second `PendingWorkerTransactionList`. -/
  | observeRecheck
  /-- One round of recovery's loop over the snapshot, or its end. -/
  | recoverNextRecord (outcome : CommandOutcome)
  /-- One round of recovery's loop over the pending set, or its end. -/
  | abortNextPending (outcome : CommandOutcome)
  deriving DecidableEq, Repr

/-- One event; `none` when it cannot happen in the state. -/
def clusterStep (s : ClusterState) : ClusterEvent → Option ClusterState
  | .beginTransaction transactionNumber outerXid =>
      if s.transactions transactionNumber = none then
        some { s with
          transactions := Function.update s.transactions transactionNumber
            (some ⟨.inProgress, outerXid⟩)
          activeTransactionNumbers := s.activeTransactionNumbers ++ [transactionNumber] }
      else none
  | .logTransactionRecord gid =>
      match s.transactions gid.transactionNumber with
      | some transaction =>
          if transaction.status = .inProgress then
            some { s with
              pgDistTransaction := s.pgDistTransaction ++ [⟨gid, transaction.outerXid⟩] }
          else none
      | none => none
  | .prepareTransaction gid =>
      if s.status gid.transactionNumber = some .inProgress ∧
          (∃ record ∈ s.pgDistTransaction, record.gid = gid) ∧ gid ∉ s.preparedTransactions then
        some { s with preparedTransactions := s.preparedTransactions ++ [gid] }
      else none
  | .commitLocal transactionNumber =>
      if s.status transactionNumber = some .inProgress then
        some (s.setStatus transactionNumber .committed)
      else none
  | .abortLocal transactionNumber =>
      if s.status transactionNumber = some .inProgress then
        some (s.setStatus transactionNumber .aborted)
      else none
  | .commitPrepared gid =>
      match s.transactions gid.transactionNumber with
      | some transaction =>
          if transaction.status = .committed ∧
              (transaction.outerXid = 0 ∨ s.outerTransactions transaction.outerXid = .committed) then
            some (s.finishPrepared gid)
          else none
      | none => none
  | .rollbackPrepared gid =>
      if s.status gid.transactionNumber = some .aborted then some (s.finishPrepared gid) else none
  | .endTransaction transactionNumber =>
      if s.status transactionNumber ≠ none ∧ s.status transactionNumber ≠ some .inProgress then
        some { s with
          activeTransactionNumbers := s.activeTransactionNumbers.filter (· ≠ transactionNumber) }
      else none
  | .commitOuter outerXid =>
      if s.outerTransactions outerXid = .inProgress then
        some { s with outerTransactions := Function.update s.outerTransactions outerXid .committed }
      else none
  | .abortOuter outerXid =>
      if s.outerTransactions outerXid = .inProgress then
        some { s with outerTransactions := Function.update s.outerTransactions outerXid .aborted }
      else none
  | .observePending =>
      match s.recovery with
      | .idle => some (s.setRecovery (.pendingObserved s.preparedTransactions))
      | _ => none
  | .observeActive =>
      match s.recovery with
      | .pendingObserved pending =>
          some (s.setRecovery (.activeObserved pending s.activeTransactionNumbers))
      | _ => none
  | .takeSnapshot =>
      match s.recovery with
      | .activeObserved pending active =>
          some (s.setRecovery (.snapshotTaken pending active s.visibleRecords))
      | _ => none
  | .observeRecheck =>
      match s.recovery with
      | .snapshotTaken pending active snapshot =>
          some (s.setRecovery (.scanning pending active snapshot s.preparedTransactions))
      | _ => none
  | .recoverNextRecord outcome =>
      match s.recovery with
      | .scanning pending active (record :: snapshot) recheck =>
          some (recoverRecord s outcome pending active record snapshot recheck)
      | .scanning pending active [] _ => some (s.setRecovery (.abortingPending pending active))
      | _ => none
  | .abortNextPending outcome =>
      match s.recovery with
      | .abortingPending (gid :: pending) active =>
          some (abortPendingTransaction s outcome gid pending active)
      | .abortingPending [] _ => some (s.setRecovery .idle)
      | _ => none

section Safety

variable {s s' : ClusterState}

theorem status_eq_some_iff {transactionNumber : Nat} {status : TransactionStatus} :
    s.status transactionNumber = some status ↔
      ∃ transaction, s.transactions transactionNumber = some transaction ∧
        transaction.status = status := by
  simp [ClusterState.status, Option.map_eq_some_iff]

/-- A distributed transaction that is to be committed: its local transaction
committed, and so did its outer transaction if it has one. -/
def Committed (s : ClusterState) (transactionNumber : Nat) : Prop :=
  ∃ transaction, s.transactions transactionNumber = some transaction ∧
    transaction.status = .committed ∧
    (transaction.outerXid ≠ 0 → s.outerTransactions transaction.outerXid = .committed)

/-- A distributed transaction that is to be rolled back: its local transaction
aborted, or its outer transaction did. -/
def Aborted (s : ClusterState) (transactionNumber : Nat) : Prop :=
  ∃ transaction, s.transactions transactionNumber = some transaction ∧
    (transaction.status = .aborted ∨
      transaction.outerXid ≠ 0 ∧ s.outerTransactions transaction.outerXid = .aborted)

/-- A distributed transaction whose local transaction has ended. -/
def Ended (s : ClusterState) (transactionNumber : Nat) : Prop :=
  ∃ transaction, s.transactions transactionNumber = some transaction ∧
    transaction.status ≠ .inProgress

theorem not_aborted_of_committed {transactionNumber : Nat}
    (h : Committed s transactionNumber) : ¬ Aborted s transactionNumber := by
  rintro ⟨transaction', htransaction', haborted⟩
  obtain ⟨transaction, htransaction, hcommitted, houter⟩ := h
  obtain rfl : transaction = transaction' := Option.some.inj (htransaction.symm.trans htransaction')
  rcases haborted with haborted | ⟨hxid, houterAborted⟩
  · rw [hcommitted] at haborted
    cases haborted
  · rw [houter hxid] at houterAborted
    cases houterAborted

/-- What every step keeps: a started transaction keeps its outer transaction, and a
local or outer transaction that has ended keeps its state. -/
structure Progress (s s' : ClusterState) : Prop where
  transactions : ∀ transactionNumber transaction, s.transactions transactionNumber = some transaction →
    ∃ transaction', s'.transactions transactionNumber = some transaction' ∧
      transaction'.outerXid = transaction.outerXid ∧
      (transaction.status = .inProgress ∨ transaction'.status = transaction.status)
  outerTransactions : ∀ outerXid, s.outerTransactions outerXid = .inProgress ∨
    s'.outerTransactions outerXid = s.outerTransactions outerXid

theorem Progress.of_eq (htransactions : s'.transactions = s.transactions)
    (houter : s'.outerTransactions = s.outerTransactions) : Progress s s' where
  transactions _ transaction h := ⟨transaction, htransactions ▸ h, rfl, Or.inr rfl⟩
  outerTransactions _ := Or.inr (houter ▸ rfl)

theorem Progress.ended_transaction (hp : Progress s s') {transactionNumber : Nat}
    {transaction : DistributedTransaction} (h : s.transactions transactionNumber = some transaction)
    (hended : transaction.status ≠ .inProgress) :
    ∃ transaction', s'.transactions transactionNumber = some transaction' ∧
      transaction'.outerXid = transaction.outerXid ∧ transaction'.status = transaction.status := by
  obtain ⟨transaction', h', houter, hstatus⟩ := hp.transactions transactionNumber transaction h
  exact ⟨transaction', h', houter, hstatus.resolve_left hended⟩

theorem Progress.ended_outer (hp : Progress s s') {outerXid : Nat}
    (hended : s.outerTransactions outerXid ≠ .inProgress) :
    s'.outerTransactions outerXid = s.outerTransactions outerXid :=
  (hp.outerTransactions outerXid).resolve_left hended

theorem Progress.status (hp : Progress s s') {transactionNumber : Nat}
    {status : TransactionStatus} (hended : status ≠ .inProgress)
    (h : s.status transactionNumber = some status) : s'.status transactionNumber = some status := by
  obtain ⟨transaction, htransaction, rfl⟩ := status_eq_some_iff.mp h
  obtain ⟨transaction', h', -, hstatus⟩ := hp.ended_transaction htransaction hended
  exact status_eq_some_iff.mpr ⟨transaction', h', hstatus⟩

theorem Committed.progress (hp : Progress s s') {transactionNumber : Nat}
    (h : Committed s transactionNumber) : Committed s' transactionNumber := by
  obtain ⟨transaction, htransaction, hcommitted, houter⟩ := h
  obtain ⟨transaction', h', hxid, hstatus⟩ :=
    hp.ended_transaction htransaction (by rw [hcommitted]; decide)
  refine ⟨transaction', h', hstatus.trans hcommitted, fun hne => ?_⟩
  rw [hxid] at hne ⊢
  have houterCommitted := houter hne
  rw [hp.ended_outer (by rw [houterCommitted]; decide), houterCommitted]

theorem Aborted.progress (hp : Progress s s') {transactionNumber : Nat}
    (h : Aborted s transactionNumber) : Aborted s' transactionNumber := by
  obtain ⟨transaction, htransaction, haborted | ⟨hne, houterAborted⟩⟩ := h
  · obtain ⟨transaction', h', -, hstatus⟩ :=
      hp.ended_transaction htransaction (by rw [haborted]; decide)
    exact ⟨transaction', h', Or.inl (hstatus.trans haborted)⟩
  · obtain ⟨transaction', h', hxid, -⟩ := hp.transactions _ transaction htransaction
    refine ⟨transaction', h', Or.inr ⟨hxid ▸ hne, ?_⟩⟩
    rw [hxid, hp.ended_outer (by rw [houterAborted]; decide), houterAborted]

theorem Ended.progress (hp : Progress s s') {transactionNumber : Nat}
    (h : Ended s transactionNumber) : Ended s' transactionNumber := by
  obtain ⟨transaction, htransaction, hended⟩ := h
  obtain ⟨transaction', h', -, hstatus⟩ := hp.ended_transaction htransaction hended
  exact ⟨transaction', h', hstatus ▸ hended⟩

/-- Every record of a snapshot belongs to a committed local transaction. -/
def SnapshotCommitted (s : ClusterState) (snapshot : List TransactionRecord) : Prop :=
  ∀ record ∈ snapshot, ∃ transaction,
    s.transactions record.gid.transactionNumber = some transaction ∧
      transaction.status = .committed ∧ transaction.outerXid = record.outerXid

theorem SnapshotCommitted.progress (hp : Progress s s') {snapshot : List TransactionRecord}
    (h : SnapshotCommitted s snapshot) : SnapshotCommitted s' snapshot := by
  intro record hrecord
  obtain ⟨transaction, htransaction, hcommitted, hxid⟩ := h record hrecord
  obtain ⟨transaction', h', hxid', hstatus⟩ :=
    hp.ended_transaction htransaction (by rw [hcommitted]; decide)
  exact ⟨transaction', h', hstatus.trans hcommitted, hxid'.trans hxid⟩

/-- Every prepared transaction of the pending set that `A` does not list is to be
rolled back, or still has a record in the part of the snapshot not scanned yet. -/
def PendingAccounted (s : ClusterState) (pending : List PreparedTransactionName)
    (active : List Nat) (snapshot : List TransactionRecord) : Prop :=
  ∀ gid ∈ pending, gid.transactionNumber ∉ active →
    Aborted s gid.transactionNumber ∨ ∃ record ∈ snapshot, record.gid = gid

theorem PendingAccounted.progress (hp : Progress s s') {pending : List PreparedTransactionName}
    {active : List Nat} {snapshot : List TransactionRecord}
    (h : PendingAccounted s pending active snapshot) : PendingAccounted s' pending active snapshot :=
  fun gid hgid hactive => (h gid hgid hactive).imp_left (Aborted.progress hp)

/-- What recovery's observations so far say about the state. -/
def PhaseInvariant (s : ClusterState) : RecoveryPhase → Prop
  | .idle => True
  | .pendingObserved pending =>
      ∀ gid ∈ pending, ∃ record ∈ s.pgDistTransaction, record.gid = gid
  | .activeObserved pending active =>
      ∀ gid ∈ pending, (∃ record ∈ s.pgDistTransaction, record.gid = gid) ∧
        (gid.transactionNumber ∉ active → Ended s gid.transactionNumber)
  | .snapshotTaken pending active snapshot =>
      SnapshotCommitted s snapshot ∧ PendingAccounted s pending active snapshot
  | .scanning pending active snapshot recheck =>
      SnapshotCommitted s snapshot ∧ PendingAccounted s pending active snapshot ∧
        ∀ record ∈ snapshot, record.gid ∈ s.preparedTransactions → record.gid ∈ recheck
  | .abortingPending pending active => PendingAccounted s pending active []

/-- The invariant of every reachable state. -/
structure RecoveryInvariant (s : ClusterState) : Prop where
  active_of_inProgress : ∀ transactionNumber transaction,
    s.transactions transactionNumber = some transaction → transaction.status = .inProgress →
      transactionNumber ∈ s.activeTransactionNumbers
  record_of_prepared : ∀ gid ∈ s.preparedTransactions,
    ∃ record ∈ s.pgDistTransaction, record.gid = gid
  transaction_of_record : ∀ record ∈ s.pgDistTransaction, ∃ transaction,
    s.transactions record.gid.transactionNumber = some transaction ∧
      transaction.outerXid = record.outerXid
  committed_of_deleted : ∀ gid ∈ s.deletedByRecovery,
    s.status gid.transactionNumber = some .committed
  not_prepared_of_deleted : ∀ gid ∈ s.deletedByRecovery, gid ∉ s.preparedTransactions
  committed_of_committedByRecovery : ∀ gid ∈ s.committedByRecovery,
    Committed s gid.transactionNumber
  aborted_of_rolledBackByRecovery : ∀ gid ∈ s.rolledBackByRecovery,
    Aborted s gid.transactionNumber
  phase : PhaseInvariant s s.recovery

theorem recoveryInvariant_initialClusterState : RecoveryInvariant initialClusterState where
  active_of_inProgress := by simp [initialClusterState]
  record_of_prepared := by simp [initialClusterState]
  transaction_of_record := by simp [initialClusterState]
  committed_of_deleted := by simp [initialClusterState]
  not_prepared_of_deleted := by simp [initialClusterState]
  committed_of_committedByRecovery := by simp [initialClusterState]
  aborted_of_rolledBackByRecovery := by simp [initialClusterState]
  phase := trivial

/-- A step that only moves transactions forward, keeps every record and prepares only
transactions in progress keeps what recovery's observations say. -/
theorem PhaseInvariant.of_transactionStep (hp : Progress s s')
    (hrecords : ∀ record ∈ s.pgDistTransaction, record ∈ s'.pgDistTransaction)
    (hprepared : ∀ gid ∈ s'.preparedTransactions, gid ∈ s.preparedTransactions ∨
      s'.status gid.transactionNumber = some .inProgress) :
    ∀ {phase : RecoveryPhase}, PhaseInvariant s phase → PhaseInvariant s' phase
  | .idle, _ => trivial
  | .pendingObserved _, h => fun gid hgid => by
      obtain ⟨record, hrecord, rfl⟩ := h gid hgid
      exact ⟨record, hrecords record hrecord, rfl⟩
  | .activeObserved _ _, h => fun gid hgid => by
      obtain ⟨⟨record, hrecord, rfl⟩, hended⟩ := h gid hgid
      exact ⟨⟨record, hrecords record hrecord, rfl⟩, fun hactive => (hended hactive).progress hp⟩
  | .snapshotTaken _ _ _, ⟨hsnapshot, hpending⟩ => ⟨hsnapshot.progress hp, hpending.progress hp⟩
  | .scanning _ _ _ _, ⟨hsnapshot, hpending, hrecheck⟩ => by
      refine ⟨hsnapshot.progress hp, hpending.progress hp, fun record hrecord hgid => ?_⟩
      rcases hprepared record.gid hgid with hold | hinProgress
      · exact hrecheck record hrecord hold
      · -- a transaction of the snapshot has committed, so it prepares nothing new
        obtain ⟨transaction, htransaction, hcommitted, -⟩ := hsnapshot.progress hp record hrecord
        obtain ⟨transaction', htransaction', hstatus⟩ := status_eq_some_iff.mp hinProgress
        rw [htransaction] at htransaction'
        cases htransaction'
        rw [hcommitted] at hstatus
        cases hstatus
  | .abortingPending _ _, h => h.progress hp

/-- A step of a distributed transaction keeps the invariant when it moves transactions
forward, keeps every record, leaves recovery alone, prepares only transactions in
progress that logged their record, and keeps the facts about active transactions and
records. -/
theorem RecoveryInvariant.of_transactionStep (h : RecoveryInvariant s) (hp : Progress s s')
    (hrecovery : s'.recovery = s.recovery)
    (hcommitted : s'.committedByRecovery = s.committedByRecovery)
    (hrolledBack : s'.rolledBackByRecovery = s.rolledBackByRecovery)
    (hdeleted : s'.deletedByRecovery = s.deletedByRecovery)
    (hrecords : ∀ record ∈ s.pgDistTransaction, record ∈ s'.pgDistTransaction)
    (hprepared : ∀ gid ∈ s'.preparedTransactions, gid ∈ s.preparedTransactions ∨
      s'.status gid.transactionNumber = some .inProgress ∧
        ∃ record ∈ s'.pgDistTransaction, record.gid = gid)
    (hactive : ∀ transactionNumber transaction,
      s'.transactions transactionNumber = some transaction → transaction.status = .inProgress →
        transactionNumber ∈ s'.activeTransactionNumbers)
    (htransaction : ∀ record ∈ s'.pgDistTransaction, ∃ transaction,
      s'.transactions record.gid.transactionNumber = some transaction ∧
        transaction.outerXid = record.outerXid) :
    RecoveryInvariant s' where
  active_of_inProgress := hactive
  record_of_prepared gid hgid := by
    rcases hprepared gid hgid with hold | ⟨-, hrecord⟩
    · obtain ⟨record, hrecord, rfl⟩ := h.record_of_prepared gid hold
      exact ⟨record, hrecords record hrecord, rfl⟩
    · exact hrecord
  transaction_of_record := htransaction
  committed_of_deleted gid hgid :=
    hp.status (by decide) (h.committed_of_deleted gid (hdeleted ▸ hgid))
  not_prepared_of_deleted gid hgid hprepared' := by
    rw [hdeleted] at hgid
    rcases hprepared gid hprepared' with hold | ⟨hinProgress, -⟩
    · exact h.not_prepared_of_deleted gid hgid hold
    · rw [hp.status (by decide) (h.committed_of_deleted gid hgid)] at hinProgress
      cases hinProgress
  committed_of_committedByRecovery gid hgid :=
    (h.committed_of_committedByRecovery gid (hcommitted ▸ hgid)).progress hp
  aborted_of_rolledBackByRecovery gid hgid :=
    (h.aborted_of_rolledBackByRecovery gid (hrolledBack ▸ hgid)).progress hp
  phase := hrecovery ▸ PhaseInvariant.of_transactionStep hp hrecords
    (fun gid hgid => (hprepared gid hgid).imp_right And.left) h.phase

section TransactionSteps

variable (h : RecoveryInvariant s)
include h

theorem RecoveryInvariant.beginTransaction {transactionNumber outerXid : Nat}
    (hnew : s.transactions transactionNumber = none) :
    RecoveryInvariant { s with
      transactions := Function.update s.transactions transactionNumber (some ⟨.inProgress, outerXid⟩)
      activeTransactionNumbers := s.activeTransactionNumbers ++ [transactionNumber] } := by
  -- the new transaction number was not started, so every fact about a started one stays
  have hother : ∀ t transaction, s.transactions t = some transaction → t ≠ transactionNumber := by
    rintro t transaction ht rfl
    rw [hnew] at ht
    cases ht
  refine h.of_transactionStep ⟨fun t transaction ht => ?_, fun _ => Or.inr rfl⟩ rfl rfl rfl rfl
    (fun _ => id) (fun _ hgid => Or.inl hgid) (fun t transaction ht hinProgress => ?_)
    (fun record hrecord => ?_)
  · exact ⟨transaction, by simp [hother t transaction ht, ht], rfl, Or.inr rfl⟩
  · by_cases heq : t = transactionNumber
    · simp [heq]
    · simp only [Function.update_of_ne heq] at ht
      exact List.mem_append_left _ (h.active_of_inProgress t transaction ht hinProgress)
  · obtain ⟨transaction, ht, hxid⟩ := h.transaction_of_record record hrecord
    exact ⟨transaction, by simp [hother _ transaction ht, ht], hxid⟩

theorem RecoveryInvariant.logTransactionRecord {gid : PreparedTransactionName}
    {transaction : DistributedTransaction}
    (htransaction : s.transactions gid.transactionNumber = some transaction) :
    RecoveryInvariant { s with
      pgDistTransaction := s.pgDistTransaction ++ [⟨gid, transaction.outerXid⟩] } := by
  refine h.of_transactionStep (.of_eq rfl rfl) rfl rfl rfl rfl
    (fun _ hrecord => List.mem_append_left _ hrecord) (fun _ hgid => Or.inl hgid)
    h.active_of_inProgress (fun record hrecord => ?_)
  rcases List.mem_append.mp hrecord with hold | hnew
  · exact h.transaction_of_record record hold
  · obtain rfl := List.mem_singleton.mp hnew
    exact ⟨transaction, htransaction, rfl⟩

theorem RecoveryInvariant.prepareTransaction {gid : PreparedTransactionName}
    (hinProgress : s.status gid.transactionNumber = some .inProgress)
    (hrecord : ∃ record ∈ s.pgDistTransaction, record.gid = gid) :
    RecoveryInvariant { s with preparedTransactions := s.preparedTransactions ++ [gid] } := by
  refine h.of_transactionStep (.of_eq rfl rfl) rfl rfl rfl rfl (fun _ => id)
    (fun gid' hgid' => ?_) h.active_of_inProgress h.transaction_of_record
  rcases List.mem_append.mp hgid' with hold | hnew
  · exact Or.inl hold
  · obtain rfl := List.mem_singleton.mp hnew
    exact Or.inr ⟨hinProgress, hrecord⟩

theorem RecoveryInvariant.setStatus {transactionNumber : Nat} {status : TransactionStatus}
    (hinProgress : s.status transactionNumber = some .inProgress) (hended : status ≠ .inProgress) :
    RecoveryInvariant (s.setStatus transactionNumber status) := by
  obtain ⟨transaction, htransaction, hstatus⟩ := status_eq_some_iff.mp hinProgress
  have htransactions : ∀ t, (s.setStatus transactionNumber status).transactions t =
      if t = transactionNumber then some { transaction with status } else s.transactions t := by
    intro t
    by_cases heq : t = transactionNumber
    · simp [ClusterState.setStatus, heq, htransaction]
    · simp [ClusterState.setStatus, heq]
  refine h.of_transactionStep ⟨fun t transaction' ht => ?_, fun _ => Or.inr rfl⟩ rfl rfl rfl rfl
    (fun _ => id) (fun _ hgid => Or.inl hgid) (fun t transaction' ht hinProgress' => ?_)
    (fun record hrecord => ?_)
  · by_cases heq : t = transactionNumber
    · subst heq
      rw [htransaction] at ht
      cases ht
      exact ⟨{ transaction with status }, by simp [htransactions], rfl, Or.inl hstatus⟩
    · exact ⟨transaction', by simp [htransactions, heq, ht], rfl, Or.inr rfl⟩
  · by_cases heq : t = transactionNumber
    · simp only [htransactions, heq, if_true, Option.some.injEq] at ht
      rw [← ht] at hinProgress'
      exact absurd hinProgress' hended
    · simp only [htransactions, heq, if_false] at ht
      exact h.active_of_inProgress t transaction' ht hinProgress'
  · obtain ⟨transaction', ht, hxid⟩ := h.transaction_of_record record hrecord
    by_cases heq : record.gid.transactionNumber = transactionNumber
    · rw [heq, htransaction] at ht
      cases ht
      exact ⟨{ transaction with status }, by simp [htransactions, heq], hxid⟩
    · exact ⟨transaction', by simp [htransactions, heq, ht], hxid⟩

theorem RecoveryInvariant.finishPrepared (gid : PreparedTransactionName) :
    RecoveryInvariant (s.finishPrepared gid) :=
  h.of_transactionStep (.of_eq rfl rfl) rfl rfl rfl rfl (fun _ => id)
    (fun _ hgid => Or.inl (List.mem_of_mem_filter hgid)) h.active_of_inProgress
    h.transaction_of_record

theorem RecoveryInvariant.endTransaction {transactionNumber : Nat}
    (hended : s.status transactionNumber ≠ some .inProgress) :
    RecoveryInvariant { s with
      activeTransactionNumbers := s.activeTransactionNumbers.filter (· ≠ transactionNumber) } := by
  refine h.of_transactionStep (.of_eq rfl rfl) rfl rfl rfl rfl (fun _ => id)
    (fun _ hgid => Or.inl hgid) (fun t transaction ht hinProgress => ?_) h.transaction_of_record
  have hne : t ≠ transactionNumber := by
    rintro rfl
    exact hended (status_eq_some_iff.mpr ⟨transaction, ht, hinProgress⟩)
  simpa [hne] using h.active_of_inProgress t transaction ht hinProgress

theorem RecoveryInvariant.endOuter {outerXid : Nat} {status : TransactionStatus}
    (hinProgress : s.outerTransactions outerXid = .inProgress) :
    RecoveryInvariant { s with
      outerTransactions := Function.update s.outerTransactions outerXid status } := by
  refine h.of_transactionStep ⟨fun t transaction ht => ⟨transaction, ht, rfl, Or.inr rfl⟩,
    fun x => ?_⟩ rfl rfl rfl rfl (fun _ => id) (fun _ hgid => Or.inl hgid)
    h.active_of_inProgress h.transaction_of_record
  by_cases heq : x = outerXid
  · exact Or.inl (heq ▸ hinProgress)
  · exact Or.inr (Function.update_of_ne heq _ _)

end TransactionSteps

section RecoverySteps

theorem recoverPreparedTransactionOnWorker_eq (gid : PreparedTransactionName) (shouldCommit : Bool)
    (outcome : CommandOutcome) :
    s.recoverPreparedTransactionOnWorker gid shouldCommit outcome =
      { s with
        preparedTransactions := if outcome = .notRun then s.preparedTransactions
          else s.preparedTransactions.filter (· ≠ gid)
        committedByRecovery := if shouldCommit then s.committedByRecovery ++ [gid]
          else s.committedByRecovery
        rolledBackByRecovery := if shouldCommit then s.rolledBackByRecovery
          else s.rolledBackByRecovery ++ [gid] } := by
  cases shouldCommit <;> by_cases houtcome : outcome = .notRun <;>
    simp [recoverPreparedTransactionOnWorker, finishPrepared, houtcome]

/-- A step of recovery keeps the invariant when it leaves the transactions alone, keeps
only records and prepared transactions that were there and a record for each prepared
transaction, sends commands and deletes records only as the invariant allows, and
moves to a phase whose invariant holds. -/
theorem RecoveryInvariant.of_recoveryStep (h : RecoveryInvariant s)
    (htransactions : s'.transactions = s.transactions)
    (houter : s'.outerTransactions = s.outerTransactions)
    (hactive : s'.activeTransactionNumbers = s.activeTransactionNumbers)
    (hrecords : ∀ record ∈ s'.pgDistTransaction, record ∈ s.pgDistTransaction)
    (hprepared : ∀ gid ∈ s'.preparedTransactions, gid ∈ s.preparedTransactions)
    (hrecord : ∀ gid ∈ s'.preparedTransactions, ∃ record ∈ s'.pgDistTransaction, record.gid = gid)
    (hcommitted : ∀ gid ∈ s'.committedByRecovery,
      gid ∈ s.committedByRecovery ∨ Committed s gid.transactionNumber)
    (hrolledBack : ∀ gid ∈ s'.rolledBackByRecovery,
      gid ∈ s.rolledBackByRecovery ∨ Aborted s gid.transactionNumber)
    (hdeleted : ∀ gid ∈ s'.deletedByRecovery, gid ∈ s.deletedByRecovery ∨
      s.status gid.transactionNumber = some .committed ∧ gid ∉ s'.preparedTransactions)
    (hphase : PhaseInvariant s' s'.recovery) : RecoveryInvariant s' := by
  have hp : Progress s s' := .of_eq htransactions houter
  have hstatus : s'.status = s.status := by
    funext transactionNumber
    simp [ClusterState.status, htransactions]
  refine ⟨fun t transaction ht hinProgress => ?_, hrecord, fun record hrecord' => ?_,
    fun gid hgid => ?_, fun gid hgid => ?_, fun gid hgid => ?_, fun gid hgid => ?_, hphase⟩
  · rw [hactive]
    exact h.active_of_inProgress t transaction (htransactions ▸ ht) hinProgress
  · rw [htransactions]
    exact h.transaction_of_record record (hrecords record hrecord')
  · rw [hstatus]
    rcases hdeleted gid hgid with hold | ⟨hcommitted', -⟩
    · exact h.committed_of_deleted gid hold
    · exact hcommitted'
  · rcases hdeleted gid hgid with hold | ⟨-, hnotPrepared⟩
    · exact fun hprepared' => h.not_prepared_of_deleted gid hold (hprepared gid hprepared')
    · exact hnotPrepared
  · rcases hcommitted gid hgid with hold | hnew
    · exact (h.committed_of_committedByRecovery gid hold).progress hp
    · exact hnew.progress hp
  · rcases hrolledBack gid hgid with hold | hnew
    · exact (h.aborted_of_rolledBackByRecovery gid hold).progress hp
    · exact hnew.progress hp

/-- Recovery observes only; what it observed becomes its phase. -/
theorem RecoveryInvariant.setRecovery (h : RecoveryInvariant s) {phase : RecoveryPhase}
    (hphase : PhaseInvariant s phase) : RecoveryInvariant (s.setRecovery phase) :=
  h.of_recoveryStep rfl rfl rfl (fun _ => id) (fun _ => id) h.record_of_prepared
    (fun _ hgid => Or.inl hgid) (fun _ hgid => Or.inl hgid) (fun _ hgid => Or.inl hgid) hphase

theorem PendingAccounted.tail {pending pending' : List PreparedTransactionName}
    {active : List Nat} {record : TransactionRecord} {snapshot : List TransactionRecord}
    (h : PendingAccounted s pending active (record :: snapshot))
    (hsub : ∀ gid ∈ pending', gid ∈ pending)
    (hhead : record.gid ∈ pending' → record.gid.transactionNumber ∉ active →
      Aborted s record.gid.transactionNumber) :
    PendingAccounted s pending' active snapshot := by
  intro gid hgid hactive
  rcases h gid (hsub gid hgid) hactive with haborted | ⟨record', hrecord', rfl⟩
  · exact Or.inl haborted
  · rcases List.mem_cons.mp hrecord' with rfl | hrest
    · exact Or.inl (hhead hgid hactive)
    · exact Or.inr ⟨record', hrest, rfl⟩

/-- The scan goes on to the next record of the snapshot, from a state with the same
transactions and fewer prepared transactions, with a pending set that lost at most
the scanned record's prepared transaction, or kept it because it is to be rolled
back. -/
theorem PhaseInvariant.scanning_tail {s₁ : ClusterState} {pending pending' : List PreparedTransactionName}
    {active : List Nat} {record : TransactionRecord} {snapshot : List TransactionRecord}
    {recheck : List PreparedTransactionName}
    (hphase : PhaseInvariant s (.scanning pending active (record :: snapshot) recheck))
    (htransactions : s₁.transactions = s.transactions)
    (houter : s₁.outerTransactions = s.outerTransactions)
    (hprepared : ∀ gid ∈ s₁.preparedTransactions, gid ∈ s.preparedTransactions)
    (hsub : ∀ gid ∈ pending', gid ∈ pending)
    (hhead : record.gid ∈ pending' → record.gid.transactionNumber ∉ active →
      Aborted s record.gid.transactionNumber) :
    PhaseInvariant s₁ (.scanning pending' active snapshot recheck) := by
  obtain ⟨hsnapshot, hpending, hrecheck⟩ := hphase
  have hp : Progress s s₁ := .of_eq htransactions houter
  refine ⟨fun record' hrecord' => ?_, (hpending.tail hsub hhead).progress hp,
    fun record' hrecord' hgid => hrecheck record' (List.mem_cons_of_mem _ hrecord')
      (hprepared _ hgid)⟩
  exact hsnapshot.progress hp record' (List.mem_cons_of_mem _ hrecord')

theorem exists_record_erase {records : List TransactionRecord} {record : TransactionRecord}
    {gid : PreparedTransactionName} (h : ∃ record' ∈ records, record'.gid = gid)
    (hne : gid ≠ record.gid) : ∃ record' ∈ records.erase record, record'.gid = gid := by
  obtain ⟨record', hrecord', rfl⟩ := h
  have hne' : record' ≠ record := fun heq => hne (heq ▸ rfl)
  exact ⟨record', (List.mem_erase_of_ne hne').mpr hrecord', rfl⟩

/-- The outer transaction of a record that passed both checks of the outer
transaction has committed. -/
theorem outer_committed_of_checks {outerXid : Nat}
    (hinProgress : ¬(outerXid ≠ 0 ∧ s.outerTransactions outerXid = .inProgress ∧
      ¬s.outerTransactions outerXid = .committed))
    (haborted : ¬(outerXid ≠ 0 ∧ ¬s.outerTransactions outerXid = .inProgress ∧
      ¬s.outerTransactions outerXid = .committed))
    (hne : outerXid ≠ 0) : s.outerTransactions outerXid = .committed := by
  cases houter : s.outerTransactions outerXid <;> simp_all

section RecoverPreparedTransactionOnWorker

variable {gid gid' : PreparedTransactionName} {shouldCommit : Bool} {outcome : CommandOutcome}

@[simp] theorem recoverPreparedTransactionOnWorker_transactions :
    (s.recoverPreparedTransactionOnWorker gid shouldCommit outcome).transactions = s.transactions := by
  simp [recoverPreparedTransactionOnWorker_eq]

@[simp] theorem recoverPreparedTransactionOnWorker_outerTransactions :
    (s.recoverPreparedTransactionOnWorker gid shouldCommit outcome).outerTransactions =
      s.outerTransactions := by
  simp [recoverPreparedTransactionOnWorker_eq]

@[simp] theorem recoverPreparedTransactionOnWorker_activeTransactionNumbers :
    (s.recoverPreparedTransactionOnWorker gid shouldCommit outcome).activeTransactionNumbers =
      s.activeTransactionNumbers := by
  simp [recoverPreparedTransactionOnWorker_eq]

@[simp] theorem recoverPreparedTransactionOnWorker_pgDistTransaction :
    (s.recoverPreparedTransactionOnWorker gid shouldCommit outcome).pgDistTransaction =
      s.pgDistTransaction := by
  simp [recoverPreparedTransactionOnWorker_eq]

@[simp] theorem recoverPreparedTransactionOnWorker_deletedByRecovery :
    (s.recoverPreparedTransactionOnWorker gid shouldCommit outcome).deletedByRecovery =
      s.deletedByRecovery := by
  simp [recoverPreparedTransactionOnWorker_eq]

theorem mem_preparedTransactions_of_recoverPreparedTransactionOnWorker
    (h : gid' ∈ (s.recoverPreparedTransactionOnWorker gid shouldCommit outcome).preparedTransactions) :
    gid' ∈ s.preparedTransactions := by
  by_cases houtcome : outcome = .notRun <;> simp_all [recoverPreparedTransactionOnWorker_eq]

theorem not_mem_preparedTransactions_recoverPreparedTransactionOnWorker
    (houtcome : outcome ≠ .notRun) :
    gid ∉ (s.recoverPreparedTransactionOnWorker gid shouldCommit outcome).preparedTransactions := by
  simp [recoverPreparedTransactionOnWorker_eq, houtcome]

theorem mem_committedByRecovery_recoverPreparedTransactionOnWorker
    (h : gid' ∈ (s.recoverPreparedTransactionOnWorker gid shouldCommit outcome).committedByRecovery) :
    gid' ∈ s.committedByRecovery ∨ shouldCommit = true ∧ gid' = gid := by
  cases shouldCommit <;> simp_all [recoverPreparedTransactionOnWorker_eq]

theorem mem_rolledBackByRecovery_recoverPreparedTransactionOnWorker
    (h : gid' ∈ (s.recoverPreparedTransactionOnWorker gid shouldCommit outcome).rolledBackByRecovery) :
    gid' ∈ s.rolledBackByRecovery ∨ shouldCommit = false ∧ gid' = gid := by
  cases shouldCommit <;> simp_all [recoverPreparedTransactionOnWorker_eq]

end RecoverPreparedTransactionOnWorker

/-- Deleting a record keeps a record for every prepared transaction but its own. -/
theorem exists_record_erase_of_not_mem {prepared : List PreparedTransactionName}
    (h : RecoveryInvariant s) {record : TransactionRecord}
    (hsub : ∀ gid ∈ prepared, gid ∈ s.preparedTransactions) (hgone : record.gid ∉ prepared) :
    ∀ gid ∈ prepared, ∃ record' ∈ s.pgDistTransaction.erase record, record'.gid = gid :=
  fun gid hgid => exists_record_erase (h.record_of_prepared gid (hsub gid hgid))
    (fun heq => hgone (heq ▸ hgid))

/-- One round of the loop over the snapshot keeps the invariant. -/
theorem RecoveryInvariant.of_recoverRecord (h : RecoveryInvariant s) {outcome : CommandOutcome}
    {pending : List PreparedTransactionName} {active : List Nat} {record : TransactionRecord}
    {snapshot : List TransactionRecord} {recheck : List PreparedTransactionName}
    (hrecovery : s.recovery = .scanning pending active (record :: snapshot) recheck) :
    RecoveryInvariant (recoverRecord s outcome pending active record snapshot recheck) := by
  have hphase : PhaseInvariant s (.scanning pending active (record :: snapshot) recheck) :=
    hrecovery ▸ h.phase
  obtain ⟨transaction, htransaction, hcommitted, hxid⟩ := hphase.1 record List.mem_cons_self
  have hfilter : ∀ gid ∈ pending.filter (· ≠ record.gid), gid ∈ pending :=
    fun _ hgid => List.mem_of_mem_filter hgid
  have hdropped : record.gid ∈ pending.filter (· ≠ record.gid) →
      record.gid.transactionNumber ∉ active → Aborted s record.gid.transactionNumber := by
    intro hmem
    simp at hmem
  have hstatus : s.status record.gid.transactionNumber = some .committed :=
    status_eq_some_iff.mpr ⟨transaction, htransaction, hcommitted⟩
  -- a record that passed both checks of its outer transaction is to be committed
  have hcommit : ¬(record.outerXid ≠ 0 ∧ s.outerTransactions record.outerXid = .inProgress ∧
        ¬s.outerTransactions record.outerXid = .committed) →
      ¬(record.outerXid ≠ 0 ∧ ¬s.outerTransactions record.outerXid = .inProgress ∧
        ¬s.outerTransactions record.outerXid = .committed) →
      Committed s record.gid.transactionNumber := fun hwaiting haborted =>
    ⟨transaction, htransaction, hcommitted, fun hne => by
      rw [hxid] at hne ⊢
      exact outer_committed_of_checks hwaiting haborted hne⟩
  unfold recoverRecord
  dsimp only
  split_ifs with hinProgress hwaiting haborted hfound houtcome hfoundAfter
  · -- a transaction still in progress is left alone
    refine h.setRecovery (hphase.scanning_tail rfl rfl (fun _ => id) (fun _ => id) ?_)
    intro _ hactive
    exact absurd (by simpa [isTransactionInProgress] using hinProgress) hactive
  · -- the outer transaction is still in progress: neither commit nor abort
    exact h.setRecovery (hphase.scanning_tail rfl rfl (fun _ => id) hfilter hdropped)
  · -- the outer transaction aborted: the prepared transaction stays pending
    refine h.setRecovery (hphase.scanning_tail rfl rfl (fun _ => id) (fun _ => id)
      fun _ _ => ⟨transaction, htransaction, Or.inr ⟨hxid ▸ haborted.1, ?_⟩⟩)
    rw [hxid]
    cases houter : s.outerTransactions record.outerXid <;> simp_all
  · -- committed on the worker: the record is deleted
    subst houtcome
    have hgone : record.gid ∉ (s.recoverPreparedTransactionOnWorker record.gid true
        .succeeded).preparedTransactions :=
      not_mem_preparedTransactions_recoverPreparedTransactionOnWorker (by decide)
    have hsub : ∀ gid ∈ (s.recoverPreparedTransactionOnWorker record.gid true
        .succeeded).preparedTransactions, gid ∈ s.preparedTransactions :=
      fun _ => mem_preparedTransactions_of_recoverPreparedTransactionOnWorker
    refine h.of_recoveryStep (by simp [ClusterState.deleteRecord, ClusterState.setRecovery])
      (by simp [ClusterState.deleteRecord, ClusterState.setRecovery])
      (by simp [ClusterState.deleteRecord, ClusterState.setRecovery])
      (fun _ hrecord' => List.mem_of_mem_erase (by simpa [ClusterState.deleteRecord,
        ClusterState.setRecovery] using hrecord'))
      hsub ?_ ?_ (fun gid hgid => Or.inl ?_) ?_
      (hphase.scanning_tail (by simp [ClusterState.deleteRecord, ClusterState.setRecovery])
        (by simp [ClusterState.deleteRecord, ClusterState.setRecovery]) hsub hfilter hdropped)
    · intro gid hgid
      simpa [ClusterState.deleteRecord, ClusterState.setRecovery] using
        exists_record_erase_of_not_mem h hsub hgone gid hgid
    · intro gid hgid
      rcases mem_committedByRecovery_recoverPreparedTransactionOnWorker hgid with hold | ⟨-, rfl⟩
      · exact Or.inl hold
      · exact Or.inr (hcommit hwaiting haborted)
    · rcases mem_rolledBackByRecovery_recoverPreparedTransactionOnWorker hgid with hold | ⟨hne, -⟩
      · exact hold
      · cases hne
    · intro gid hgid
      simp only [ClusterState.setRecovery, ClusterState.deleteRecord,
        recoverPreparedTransactionOnWorker_deletedByRecovery, List.mem_append,
        List.mem_singleton] at hgid
      rcases hgid with hold | rfl
      · exact Or.inl hold
      · exact Or.inr ⟨hstatus, hgone⟩
  · -- the commit failed: the scan stops and nothing is aborted
    refine h.of_recoveryStep (by simp [ClusterState.setRecovery])
      (by simp [ClusterState.setRecovery]) (by simp [ClusterState.setRecovery])
      (fun _ hrecord' => by simpa [ClusterState.setRecovery] using hrecord')
      (fun _ => mem_preparedTransactions_of_recoverPreparedTransactionOnWorker)
      (fun gid hgid => by
        simpa [ClusterState.setRecovery] using h.record_of_prepared gid
          (mem_preparedTransactions_of_recoverPreparedTransactionOnWorker hgid))
      ?_ (fun gid hgid => Or.inl ?_) (fun gid hgid => Or.inl (by simpa [ClusterState.setRecovery] using hgid)) trivial
    · intro gid hgid
      rcases mem_committedByRecovery_recoverPreparedTransactionOnWorker hgid with hold | ⟨-, rfl⟩
      · exact Or.inl hold
      · exact Or.inr (hcommit hwaiting haborted)
    · rcases mem_rolledBackByRecovery_recoverPreparedTransactionOnWorker hgid with hold | ⟨hne, -⟩
      · exact hold
      · cases hne
  · -- prepared again since the first observation: left for the next run
    exact h.setRecovery (hphase.scanning_tail rfl rfl (fun _ => id) hfilter hdropped)
  · -- no prepared transaction in the second observation: the record is deleted
    have hgone : record.gid ∉ s.preparedTransactions :=
      fun hprepared => hfoundAfter (hphase.2.2 record List.mem_cons_self hprepared)
    refine h.of_recoveryStep rfl rfl rfl (fun _ hrecord' => List.mem_of_mem_erase hrecord')
      (fun _ => id) (exists_record_erase_of_not_mem h (fun _ => id) hgone)
      (fun _ hgid => Or.inl hgid) (fun _ hgid => Or.inl hgid) ?_
      (hphase.scanning_tail rfl rfl (fun _ => id) hfilter hdropped)
    intro gid hgid
    simp only [ClusterState.deleteRecord, ClusterState.setRecovery, List.mem_append,
      List.mem_singleton] at hgid
    rcases hgid with hold | rfl
    · exact Or.inl hold
    · exact Or.inr ⟨hstatus, hgone⟩

/-- One round of the loop over the pending set keeps the invariant. -/
theorem RecoveryInvariant.of_abortPendingTransaction (h : RecoveryInvariant s)
    {outcome : CommandOutcome} {gid : PreparedTransactionName}
    {pending : List PreparedTransactionName} {active : List Nat}
    (hrecovery : s.recovery = .abortingPending (gid :: pending) active) :
    RecoveryInvariant (abortPendingTransaction s outcome gid pending active) := by
  have hphase : PendingAccounted s (gid :: pending) active [] := by
    have := h.phase
    rwa [hrecovery] at this
  have htail : PendingAccounted s pending active [] :=
    fun gid' hgid' => hphase gid' (List.mem_cons_of_mem _ hgid')
  unfold abortPendingTransaction
  split_ifs with hinProgress houtcome
  · exact h.setRecovery htail
  · -- rolled back on the worker: the scan goes on
    have haborted : Aborted s gid.transactionNumber := by
      rcases hphase gid List.mem_cons_self (by simpa [isTransactionInProgress] using hinProgress)
        with haborted | ⟨_, hnone, -⟩
      · exact haborted
      · cases hnone
    refine h.of_recoveryStep (by simp [ClusterState.setRecovery])
      (by simp [ClusterState.setRecovery]) (by simp [ClusterState.setRecovery])
      (fun _ hrecord => by simpa [ClusterState.setRecovery] using hrecord)
      (fun _ => mem_preparedTransactions_of_recoverPreparedTransactionOnWorker)
      (fun gid' hgid' => by
        simpa [ClusterState.setRecovery] using h.record_of_prepared gid'
          (mem_preparedTransactions_of_recoverPreparedTransactionOnWorker hgid'))
      (fun gid' hgid' => Or.inl ?_) ?_
      (fun gid' hgid' => Or.inl (by simpa [ClusterState.setRecovery] using hgid'))
      (htail.progress (.of_eq (by simp [ClusterState.setRecovery])
        (by simp [ClusterState.setRecovery])))
    · rcases mem_committedByRecovery_recoverPreparedTransactionOnWorker hgid' with hold | ⟨hne, -⟩
      · exact hold
      · cases hne
    · intro gid' hgid'
      rcases mem_rolledBackByRecovery_recoverPreparedTransactionOnWorker hgid' with hold | ⟨-, rfl⟩
      · exact Or.inl hold
      · exact Or.inr haborted
  · -- the rollback failed: recovery stops
    have haborted : Aborted s gid.transactionNumber := by
      rcases hphase gid List.mem_cons_self (by simpa [isTransactionInProgress] using hinProgress)
        with haborted | ⟨_, hnone, -⟩
      · exact haborted
      · cases hnone
    refine h.of_recoveryStep (by simp [ClusterState.setRecovery])
      (by simp [ClusterState.setRecovery]) (by simp [ClusterState.setRecovery])
      (fun _ hrecord => by simpa [ClusterState.setRecovery] using hrecord)
      (fun _ => mem_preparedTransactions_of_recoverPreparedTransactionOnWorker)
      (fun gid' hgid' => by
        simpa [ClusterState.setRecovery] using h.record_of_prepared gid'
          (mem_preparedTransactions_of_recoverPreparedTransactionOnWorker hgid'))
      (fun gid' hgid' => Or.inl ?_) ?_
      (fun gid' hgid' => Or.inl (by simpa [ClusterState.setRecovery] using hgid')) trivial
    · rcases mem_committedByRecovery_recoverPreparedTransactionOnWorker hgid' with hold | ⟨hne, -⟩
      · exact hold
      · cases hne
    · intro gid' hgid'
      rcases mem_rolledBackByRecovery_recoverPreparedTransactionOnWorker hgid' with hold | ⟨-, rfl⟩
      · exact Or.inl hold
      · exact Or.inr haborted

/-- Recovery's first observation: every prepared transaction has a record. -/
theorem RecoveryInvariant.observePending (h : RecoveryInvariant s) :
    RecoveryInvariant (s.setRecovery (.pendingObserved s.preparedTransactions)) :=
  h.setRecovery h.record_of_prepared

/-- Recovery's second observation: a prepared transaction of the first that is not
listed as active has ended. -/
theorem RecoveryInvariant.observeActive (h : RecoveryInvariant s)
    {pending : List PreparedTransactionName} (hrecovery : s.recovery = .pendingObserved pending) :
    RecoveryInvariant (s.setRecovery (.activeObserved pending s.activeTransactionNumbers)) := by
  have hphase : PhaseInvariant s (.pendingObserved pending) := hrecovery ▸ h.phase
  refine h.setRecovery fun gid hgid => ⟨hphase gid hgid, fun hactive => ?_⟩
  obtain ⟨record, hrecord, rfl⟩ := hphase gid hgid
  obtain ⟨transaction, htransaction, -⟩ := h.transaction_of_record record hrecord
  exact ⟨transaction, htransaction,
    fun hinProgress => hactive (h.active_of_inProgress _ transaction htransaction hinProgress)⟩

/-- Recovery's third observation: a prepared transaction of the first that is not
listed as active either aborted or has a record in the snapshot. -/
theorem RecoveryInvariant.takeSnapshot (h : RecoveryInvariant s)
    {pending : List PreparedTransactionName} {active : List Nat}
    (hrecovery : s.recovery = .activeObserved pending active) :
    RecoveryInvariant (s.setRecovery (.snapshotTaken pending active s.visibleRecords)) := by
  have hphase : PhaseInvariant s (.activeObserved pending active) := hrecovery ▸ h.phase
  refine h.setRecovery ⟨fun record hrecord => ?_, fun gid hgid hactive => ?_⟩
  · obtain ⟨hmem, hvisible⟩ := List.mem_filter.mp hrecord
    obtain ⟨transaction, htransaction, hxid⟩ := h.transaction_of_record record hmem
    obtain ⟨transaction', htransaction', hcommitted⟩ :=
      status_eq_some_iff.mp (of_decide_eq_true hvisible)
    rw [htransaction] at htransaction'
    cases htransaction'
    exact ⟨transaction, htransaction, hcommitted, hxid⟩
  · obtain ⟨⟨record, hrecord, rfl⟩, hended⟩ := hphase gid hgid
    obtain ⟨transaction, htransaction, hnotInProgress⟩ := hended hactive
    cases hstatus : transaction.status with
    | inProgress => exact absurd hstatus hnotInProgress
    | committed =>
        refine Or.inr ⟨record, List.mem_filter.mpr ⟨hrecord, ?_⟩, rfl⟩
        exact decide_eq_true (status_eq_some_iff.mpr ⟨transaction, htransaction, hstatus⟩)
    | aborted => exact Or.inl ⟨transaction, htransaction, Or.inl hstatus⟩

/-- Recovery's fourth observation: what is prepared now was prepared at the recheck. -/
theorem RecoveryInvariant.observeRecheck (h : RecoveryInvariant s)
    {pending : List PreparedTransactionName} {active : List Nat}
    {snapshot : List TransactionRecord} (hrecovery : s.recovery = .snapshotTaken pending active snapshot) :
    RecoveryInvariant
      (s.setRecovery (.scanning pending active snapshot s.preparedTransactions)) := by
  have hphase : PhaseInvariant s (.snapshotTaken pending active snapshot) := hrecovery ▸ h.phase
  exact h.setRecovery ⟨hphase.1, hphase.2, fun _ _ hgid => hgid⟩

end RecoverySteps

/-- Every enabled step keeps the invariant. -/
theorem RecoveryInvariant.clusterStep (h : RecoveryInvariant s) {event : ClusterEvent}
    (hstep : clusterStep s event = some s') : RecoveryInvariant s' := by
  cases event with
  | beginTransaction transactionNumber outerXid =>
      simp only [Citus.Transaction.clusterStep] at hstep
      split_ifs at hstep with hnew
      cases hstep
      exact h.beginTransaction hnew
  | logTransactionRecord gid =>
      simp only [Citus.Transaction.clusterStep] at hstep
      split at hstep
      · split_ifs at hstep
        cases hstep
        exact h.logTransactionRecord ‹_›
      · cases hstep
  | prepareTransaction gid =>
      simp only [Citus.Transaction.clusterStep] at hstep
      split_ifs at hstep with hguard
      cases hstep
      exact h.prepareTransaction hguard.1 hguard.2.1
  | commitLocal transactionNumber =>
      simp only [Citus.Transaction.clusterStep] at hstep
      split_ifs at hstep with hinProgress
      cases hstep
      exact h.setStatus hinProgress (by decide)
  | abortLocal transactionNumber =>
      simp only [Citus.Transaction.clusterStep] at hstep
      split_ifs at hstep with hinProgress
      cases hstep
      exact h.setStatus hinProgress (by decide)
  | commitPrepared gid =>
      simp only [Citus.Transaction.clusterStep] at hstep
      split at hstep
      · split_ifs at hstep
        cases hstep
        exact h.finishPrepared gid
      · cases hstep
  | rollbackPrepared gid =>
      simp only [Citus.Transaction.clusterStep] at hstep
      split_ifs at hstep
      cases hstep
      exact h.finishPrepared gid
  | endTransaction transactionNumber =>
      simp only [Citus.Transaction.clusterStep] at hstep
      split_ifs at hstep with hended
      cases hstep
      exact h.endTransaction hended.2
  | commitOuter outerXid =>
      simp only [Citus.Transaction.clusterStep] at hstep
      split_ifs at hstep with hinProgress
      cases hstep
      exact h.endOuter hinProgress
  | abortOuter outerXid =>
      simp only [Citus.Transaction.clusterStep] at hstep
      split_ifs at hstep with hinProgress
      cases hstep
      exact h.endOuter hinProgress
  | observePending =>
      simp only [Citus.Transaction.clusterStep] at hstep
      split at hstep <;> cases hstep
      exact h.observePending
  | observeActive =>
      simp only [Citus.Transaction.clusterStep] at hstep
      split at hstep <;> cases hstep
      exact h.observeActive ‹_›
  | takeSnapshot =>
      simp only [Citus.Transaction.clusterStep] at hstep
      split at hstep <;> cases hstep
      exact h.takeSnapshot ‹_›
  | observeRecheck =>
      simp only [Citus.Transaction.clusterStep] at hstep
      split at hstep <;> cases hstep
      exact h.observeRecheck ‹_›
  | recoverNextRecord outcome =>
      simp only [Citus.Transaction.clusterStep] at hstep
      split at hstep <;> cases hstep
      · exact h.of_recoverRecord ‹_›
      · rename_i pending active _ hrecovery
        have hphase : PhaseInvariant s (.scanning pending active [] _) := hrecovery ▸ h.phase
        exact h.setRecovery hphase.2.1
  | abortNextPending outcome =>
      simp only [Citus.Transaction.clusterStep] at hstep
      split at hstep <;> cases hstep
      · exact h.of_abortPendingTransaction ‹_›
      · exact h.setRecovery trivial

end Safety

/-- In every run, recovery has sent `COMMIT PREPARED` only for transactions that are
to be committed and `ROLLBACK PREPARED` only for transactions that are to be rolled
back, and no prepared transaction whose record it deleted is left on the worker. -/
theorem recoverWorkerTransactions_safe {events : List ClusterEvent} {s : ClusterState}
    (hrun : events.foldlM clusterStep initialClusterState = some s) :
    (∀ gid ∈ s.committedByRecovery, Committed s gid.transactionNumber) ∧
      (∀ gid ∈ s.rolledBackByRecovery, Aborted s gid.transactionNumber) ∧
      ∀ gid ∈ s.deletedByRecovery, gid ∉ s.preparedTransactions := by
  have h : RecoveryInvariant s :=
    EventRun.foldlM_invariant RecoveryInvariant recoveryInvariant_initialClusterState
      (fun _ _ _ hs hstep => hs.clusterStep hstep) hrun
  exact ⟨h.committed_of_committedByRecovery, h.aborted_of_rolledBackByRecovery,
    h.not_prepared_of_deleted⟩

/-- Transaction 1 commits locally but its `COMMIT PREPARED` is lost, transaction 2
aborts after preparing and its `ROLLBACK PREPARED` is lost; a recovery run then
commits the first, deletes its record, and rolls back the second. -/
def lostSecondPhaseEvents : List ClusterEvent :=
  [.beginTransaction 1 0, .logTransactionRecord ⟨1, 0⟩, .prepareTransaction ⟨1, 0⟩,
    .commitLocal 1, .endTransaction 1, .beginTransaction 2 0, .logTransactionRecord ⟨2, 0⟩,
    .prepareTransaction ⟨2, 0⟩, .abortLocal 2, .endTransaction 2, .observePending,
    .observeActive, .takeSnapshot, .observeRecheck, .recoverNextRecord .succeeded,
    .recoverNextRecord .succeeded, .abortNextPending .succeeded, .abortNextPending .succeeded]

theorem recoverWorkerTransactions_safe_lostSecondPhase :
    ∃ s, lostSecondPhaseEvents.foldlM clusterStep initialClusterState = some s ∧
      s.committedByRecovery = [⟨1, 0⟩] ∧ s.rolledBackByRecovery = [⟨2, 0⟩] ∧
      s.deletedByRecovery = [⟨1, 0⟩] ∧
      ((∀ gid ∈ s.committedByRecovery, Committed s gid.transactionNumber) ∧
        (∀ gid ∈ s.rolledBackByRecovery, Aborted s gid.transactionNumber) ∧
        ∀ gid ∈ s.deletedByRecovery, gid ∉ s.preparedTransactions) :=
  ⟨_, rfl, rfl, rfl, rfl, @recoverWorkerTransactions_safe lostSecondPhaseEvents _ rfl⟩

end Citus.Transaction
