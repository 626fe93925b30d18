import Citus.Operations.ShardCleaner
import Citus.Lib.ListUpdate
import Citus.Lib.Run
import Mathlib

/-!
# Cleaners and the operations whose resources they drop

`dropOrphanedResourcesForCleanup_in_operation_transaction` shows a cleaner dropping the
resources of an operation that has not committed, when the cleaner runs in the
operation's own transaction. Every other cleaner waits for the operation
(`cleaner_drops_after_operation_ends`): over every run in which each statement comes
from a transaction in progress, a cleaner that is not the transaction that registered
the operation drops its resources only after that transaction ended, and those of a
`CLEANUP_DEFERRED_ON_SUCCESS` record only after it committed.

Two mechanisms carry it. The transaction that registers an operation holds the
operation's advisory lock until it ends (`RegisterOperationNeedingCleanup`, the end of
the transaction), and `TryLockOperationId` refuses the lock to every other
transaction meanwhile. A deferred record is inserted in the operation's own
transaction, so no other transaction sees it before that transaction commits. The
invariant (`CleanupInvariant`) keeps the facts these need: operation ids and record ids
are fresh, each operation id has at most one lock, every record belongs to a
registered operation, and every drop recorded so far was safe.
-/

namespace Citus.Operations

namespace CleanupState

variable (state : CleanupState)

/-- The transaction has begun and has not ended. -/
def isRunning (transactionId : Nat) : Bool :=
  state.transactions[transactionId]? == some .inProgress

variable {state}

theorem isRunning_iff {transactionId : Nat} :
    state.isRunning transactionId = true ↔
      transactionId < state.transactions.length ∧ state.status transactionId = .inProgress := by
  simp only [isRunning, status, List.getD_eq_getElem?_getD, beq_iff_eq]
  constructor
  · intro h
    obtain ⟨hlt, -⟩ := List.getElem?_eq_some_iff.mp h
    exact ⟨hlt, by rw [h]; rfl⟩
  · rintro ⟨hlt, hstatus⟩
    rw [List.getElem?_eq_getElem hlt] at hstatus ⊢
    exact congrArg some hstatus

theorem status_append (transactionId : Nat) (status : TransactionStatus) :
    ({ state with transactions := state.transactions ++ [status] } : CleanupState).status
        transactionId =
      if transactionId = state.transactions.length then status else state.status transactionId := by
  simp only [CleanupState.status, List.getD_eq_getElem?_getD, List.getElem?_append]
  split_ifs with hlt heq heq
  · omega
  · rfl
  · simp [heq]
  · have hpast : [status].length ≤ transactionId - state.transactions.length := by
      simp only [List.length_singleton]
      omega
    rw [List.getElem?_eq_none hpast, List.getElem?_eq_none (Nat.le_of_not_lt hlt)]

/-- A transaction that begins reads as in progress, as an id never begun does. -/
@[simp] theorem status_beginTransaction (transactionId : Nat) :
    state.beginTransaction.1.status transactionId = state.status transactionId := by
  rw [beginTransaction, status_append]
  split_ifs with heq
  · rw [heq, CleanupState.status, List.getD_eq_getElem?_getD, List.getElem?_eq_none le_rfl]
    rfl
  · rfl

theorem status_outsideTransaction {transactionId : Nat}
    (hne : transactionId ≠ state.transactions.length) :
    state.outsideTransaction.1.status transactionId = state.status transactionId := by
  rw [outsideTransaction, status_append, if_neg hne]

theorem status_endTransaction {transactionId : Nat} (status : TransactionStatus)
    (hlt : transactionId < state.transactions.length) (other : Nat) :
    (state.endTransaction transactionId status).status other =
      if other = transactionId then status else state.status other := by
  simp only [endTransaction, CleanupState.status, List.getD_eq_getElem?_getD, List.getElem?_set]
  split_ifs with heq heq' heq' <;> first | rfl | omega

/-- The state of the operation's transaction that `dropResource` records. -/
def operationStatus (operationId : Nat) : TransactionStatus :=
  match state.operationTransaction operationId with
  | some transactionId => state.status transactionId
  | none => .committed

theorem dropResource_eq (record : CleanupRecord) (cleaner : Option Nat) :
    state.dropResource record cleaner =
      { state with
        dropped := state.dropped ++ [⟨record, cleaner, state.operationStatus record.operationId⟩] } :=
  rfl

/-- The operation has been registered by a transaction. -/
def Registered (operationId : Nat) : Prop :=
  ∃ transactionId, (transactionId, operationId) ∈ state.currentOperationId

theorem operationTransaction_eq_some (hnodup : (state.currentOperationId.map (·.2)).Nodup)
    {transactionId operationId : Nat} (hmem : (transactionId, operationId) ∈ state.currentOperationId) :
    state.operationTransaction operationId = some transactionId := by
  obtain ⟨entry, hfind⟩ : ∃ entry, state.currentOperationId.find? (·.2 == operationId) = some entry :=
    Option.isSome_iff_exists.mp (List.find?_isSome.mpr ⟨_, hmem, by simp⟩)
  have hentry : entry.2 = operationId := by simpa using List.find?_some hfind
  rw [operationTransaction, hfind,
    List.inj_on_of_nodup_map hnodup (List.mem_of_find?_eq_some hfind) hmem hentry]
  rfl

theorem mem_of_currentOperationOf_eq_some {transactionId operationId : Nat}
    (h : currentOperationOf state transactionId = some operationId) :
    (transactionId, operationId) ∈ state.currentOperationId := by
  obtain ⟨entry, hlast, rfl⟩ := Option.map_eq_some_iff.mp h
  obtain ⟨hmem, hid⟩ := List.mem_filter.mp (List.mem_of_getLast? hlast)
  rw [beq_iff_eq] at hid
  rw [← hid]
  exact hmem

end CleanupState

open CleanupState

/-- A drop that a cleaner other than the operation's own transaction made after that
transaction ended, and after it committed for a deferred record. -/
def DropSafe (state : CleanupState) (drop : DroppedResource) : Prop :=
  ∀ cleaner, drop.cleaner = some cleaner →
    state.operationTransaction drop.record.operationId ≠ some cleaner →
      drop.operationStatus ≠ .inProgress ∧
        (drop.record.policy = .deferredOnSuccess → drop.operationStatus = .committed)

/-- The events the coordinator issues in a state: a statement runs in a transaction in
progress, and `InsertCleanupRecordOutsideTransaction` is called only for the policies its
assertion allows. -/
def CleanupEvent.issuable (state : CleanupState) : CleanupEvent → Bool
  | .begin => true
  | .registerOperation transactionId => state.isRunning transactionId
  | .insertOnSuccess transactionId _ _ => state.isRunning transactionId
  | .insertOutsideTransaction transactionId _ _ policy =>
      state.isRunning transactionId && policy != .deferredOnSuccess
  | .finalizeOnSuccess transactionId => state.isRunning transactionId
  | .dropOrphanedResources transactionId => state.isRunning transactionId
  | .commit transactionId => state.isRunning transactionId
  | .abort transactionId => state.isRunning transactionId

/-- What every state that issuable events reach keeps. -/
structure CleanupInvariant (state : CleanupState) : Prop where
  operations_lt : ∀ entry ∈ state.currentOperationId,
    entry.1 < state.transactions.length ∧ entry.2 < state.nextOperationId
  operations_nodup : (state.currentOperationId.map (·.2)).Nodup
  locks_lt : ∀ lock ∈ state.operationLocks, lock.1 < state.nextOperationId
  locks_nodup : (state.operationLocks.map (·.1)).Nodup
  /-- a transaction in progress holds the lock of every operation it registered -/
  locks_held : ∀ entry ∈ state.currentOperationId, state.status entry.1 = .inProgress →
    (entry.2, entry.1) ∈ state.operationLocks
  records_registered : ∀ tuple ∈ state.pgDistCleanup, state.Registered tuple.record.operationId
  record_ids_nodup : (state.pgDistCleanup.map (·.record.recordId)).Nodup
  record_ids_lt : ∀ tuple ∈ state.pgDistCleanup, tuple.record.recordId < state.nextCleanupRecordId
  /-- a deferred record is inserted by the transaction that registered its operation -/
  deferred_xmin : ∀ tuple ∈ state.pgDistCleanup, tuple.record.policy = .deferredOnSuccess →
    (tuple.xmin, tuple.record.operationId) ∈ state.currentOperationId
  dropped_registered : ∀ drop ∈ state.dropped, state.Registered drop.record.operationId
  dropped_safe : ∀ drop ∈ state.dropped, DropSafe state drop

theorem cleanupInvariant_initialCleanupState : CleanupInvariant initialCleanupState := by
  refine ⟨?_, List.nodup_nil, ?_, List.nodup_nil, ?_, ?_, List.nodup_nil, ?_, ?_, ?_, ?_⟩ <;>
    simp [initialCleanupState]

namespace CleanupInvariant

variable {state state' : CleanupState}

theorem beginTransaction (h : CleanupInvariant state) : CleanupInvariant state.beginTransaction.1 where
  operations_lt entry hentry := by
    have hlt := h.operations_lt entry hentry
    simp only [CleanupState.beginTransaction, List.length_append, List.length_singleton]
    omega
  operations_nodup := h.operations_nodup
  locks_lt := h.locks_lt
  locks_nodup := h.locks_nodup
  locks_held entry hentry hstatus := h.locks_held entry hentry (by rwa [status_beginTransaction] at hstatus)
  records_registered := h.records_registered
  record_ids_nodup := h.record_ids_nodup
  record_ids_lt := h.record_ids_lt
  deferred_xmin := h.deferred_xmin
  dropped_registered := h.dropped_registered
  dropped_safe := h.dropped_safe

/-- A transaction through a separate connection is new, so no operation is its. -/
theorem outsideTransaction (h : CleanupInvariant state) : CleanupInvariant state.outsideTransaction.1 where
  operations_lt entry hentry := by
    have hlt := h.operations_lt entry hentry
    simp only [CleanupState.outsideTransaction, List.length_append, List.length_singleton]
    omega
  operations_nodup := h.operations_nodup
  locks_lt := h.locks_lt
  locks_nodup := h.locks_nodup
  locks_held entry hentry hstatus := by
    rw [status_outsideTransaction (h.operations_lt entry hentry).1.ne] at hstatus
    exact h.locks_held entry hentry hstatus
  records_registered := h.records_registered
  record_ids_nodup := h.record_ids_nodup
  record_ids_lt := h.record_ids_lt
  deferred_xmin := h.deferred_xmin
  dropped_registered := h.dropped_registered
  dropped_safe := h.dropped_safe

theorem map_record_deleteRecord (state : CleanupState) (transactionId recordId : Nat) :
    (state.deleteRecord transactionId recordId).pgDistCleanup.map (·.record) =
      state.pgDistCleanup.map (·.record) := by
  simp only [CleanupState.deleteRecord, List.map_map]
  refine List.map_congr_left fun tuple _ => ?_
  simp only [Function.comp_apply]
  split_ifs <;> rfl

/-- A deletion changes only the deleting transaction of a row. -/
theorem deleteRecord (h : CleanupInvariant state) (transactionId recordId : Nat) :
    CleanupInvariant (state.deleteRecord transactionId recordId) := by
  -- every row of the new table is a row of the old one with another deleting transaction
  have hrow : ∀ tuple ∈ (state.deleteRecord transactionId recordId).pgDistCleanup,
      ∃ old ∈ state.pgDistCleanup, old.record = tuple.record ∧ old.xmin = tuple.xmin := by
    intro tuple htuple
    obtain ⟨old, hold, rfl⟩ := List.mem_map.mp htuple
    exact ⟨old, hold, by split_ifs <;> rfl, by split_ifs <;> rfl⟩
  refine ⟨h.operations_lt, h.operations_nodup, h.locks_lt, h.locks_nodup, h.locks_held, ?_, ?_, ?_,
    ?_, h.dropped_registered, h.dropped_safe⟩
  · intro tuple htuple
    obtain ⟨old, hold, hrecord, -⟩ := hrow tuple htuple
    exact hrecord ▸ h.records_registered old hold
  · have hids := congrArg (List.map (·.recordId)) (map_record_deleteRecord state transactionId recordId)
    simp only [List.map_map] at hids
    rw [show (fun tuple : CleanupTuple => tuple.record.recordId) =
      (fun record : CleanupRecord => record.recordId) ∘ (·.record) from rfl, hids]
    exact h.record_ids_nodup
  · intro tuple htuple
    obtain ⟨old, hold, hrecord, -⟩ := hrow tuple htuple
    exact hrecord ▸ h.record_ids_lt old hold
  · intro tuple htuple hpolicy
    obtain ⟨old, hold, hrecord, hxmin⟩ := hrow tuple htuple
    rw [← hrecord, ← hxmin]
    exact h.deferred_xmin old hold (hrecord ▸ hpolicy)

/-- A drop of a record of a registered operation that was safe. -/
theorem dropResource (h : CleanupInvariant state) {record : CleanupRecord} {cleaner : Option Nat}
    (hregistered : state.Registered record.operationId)
    (hsafe : DropSafe state ⟨record, cleaner, state.operationStatus record.operationId⟩) :
    CleanupInvariant (state.dropResource record cleaner) := by
  rw [dropResource_eq]
  refine ⟨h.operations_lt, h.operations_nodup, h.locks_lt, h.locks_nodup, h.locks_held,
    h.records_registered, h.record_ids_nodup, h.record_ids_lt, h.deferred_xmin, ?_, ?_⟩
  · intro drop hdrop
    rcases List.mem_append.mp hdrop with hdrop | hdrop
    · exact h.dropped_registered drop hdrop
    · rw [List.mem_singleton] at hdrop
      rw [hdrop]
      exact hregistered
  · intro drop hdrop
    rcases List.mem_append.mp hdrop with hdrop | hdrop
    · exact h.dropped_safe drop hdrop
    · rw [List.mem_singleton] at hdrop
      rw [hdrop]
      exact hsafe

/-- `TryLockOperationId` finds the one lock of the operation, or takes a new one. -/
theorem tryLockOperationId_eq_some {transactionId operationId : Nat}
    (hlock : tryLockOperationId state transactionId operationId = some state') :
    state' = state ∧ (operationId, transactionId) ∈ state.operationLocks ∨
      (∀ lock ∈ state.operationLocks, lock.1 ≠ operationId) ∧
        state' = { state with
          operationLocks := state.operationLocks ++ [(operationId, transactionId)] } := by
  unfold tryLockOperationId at hlock
  split at hlock
  · rename_i operationId' holder hfind
    split at hlock
    · rename_i hholder
      have hkey : operationId' = operationId := by simpa using List.find?_some hfind
      rw [beq_iff_eq] at hholder
      refine .inl ⟨(Option.some.inj hlock).symm, ?_⟩
      rw [← hkey, ← hholder]
      exact List.mem_of_find?_eq_some hfind
    · cases hlock
  · rename_i hfind
    exact .inr ⟨by simpa using List.find?_eq_none.mp hfind, (Option.some.inj hlock).symm⟩

/-- No transaction takes the lock of an operation that another one holds. -/
theorem tryLockOperationId_eq_none (h : CleanupInvariant state) {transactionId operationId holder : Nat}
    (hheld : (operationId, holder) ∈ state.operationLocks) (hne : holder ≠ transactionId) :
    tryLockOperationId state transactionId operationId = none := by
  obtain ⟨lock, hfind⟩ : ∃ lock, state.operationLocks.find? (·.1 == operationId) = some lock :=
    Option.isSome_iff_exists.mp (List.find?_isSome.mpr ⟨_, hheld, by simp⟩)
  have hkey : lock.1 = operationId := by simpa using List.find?_some hfind
  have hlock : lock = (operationId, holder) :=
    List.inj_on_of_nodup_map h.locks_nodup (List.mem_of_find?_eq_some hfind) hheld hkey
  unfold tryLockOperationId
  rw [hfind, hlock]
  simp [hne]

theorem tryLockOperationId (h : CleanupInvariant state) {transactionId operationId : Nat}
    (hregistered : state.Registered operationId)
    (hlock : tryLockOperationId state transactionId operationId = some state') :
    CleanupInvariant state' := by
  rcases tryLockOperationId_eq_some hlock with ⟨rfl, -⟩ | ⟨hnew, rfl⟩
  · exact h
  obtain ⟨registrar, hregistrar⟩ := hregistered
  refine ⟨h.operations_lt, h.operations_nodup, fun lock hlock' => ?_, ?_,
    fun entry hentry hstatus => List.mem_append_left _ (h.locks_held entry hentry hstatus),
    h.records_registered, h.record_ids_nodup, h.record_ids_lt, h.deferred_xmin,
    h.dropped_registered, h.dropped_safe⟩
  · rcases List.mem_append.mp hlock' with hlock' | hlock'
    · exact h.locks_lt lock hlock'
    · rw [List.mem_singleton] at hlock'
      rw [hlock']
      exact (h.operations_lt _ hregistrar).2
  · exact ListUpdate.nodup_map_append_singleton h.locks_nodup hnew

/-- The end of a transaction in progress releases its locks, and its operations are no
longer in progress. -/
theorem endTransaction (h : CleanupInvariant state) {transactionId : Nat}
    {status : TransactionStatus} (hrunning : state.isRunning transactionId = true)
    (hstatus : status ≠ .inProgress) :
    CleanupInvariant (state.endTransaction transactionId status) := by
  have hlt := (isRunning_iff.mp hrunning).1
  refine ⟨fun entry hentry => ?_, h.operations_nodup,
    fun lock hlock => h.locks_lt lock (List.mem_filter.mp hlock).1,
    h.locks_nodup.sublist (List.filter_sublist.map _), fun entry hentry hrunning' => ?_,
    h.records_registered, h.record_ids_nodup, h.record_ids_lt, h.deferred_xmin,
    h.dropped_registered, h.dropped_safe⟩
  · simpa [CleanupState.endTransaction] using h.operations_lt entry hentry
  · rw [status_endTransaction status hlt] at hrunning'
    split_ifs at hrunning' with hsame
    · exact absurd hrunning' hstatus
    · exact List.mem_filter.mpr ⟨h.locks_held entry hentry hrunning', by simpa using hsame⟩

/-- A new record of a registered operation; a deferred one inserted by the transaction
that registered the operation. -/
theorem insertCleanupRecord (h : CleanupInvariant state) {operationId objectType objectName xmin : Nat}
    {policy : CleanupPolicy} (hregistered : state.Registered operationId)
    (hdeferred : policy = .deferredOnSuccess → (xmin, operationId) ∈ state.currentOperationId) :
    CleanupInvariant (insertCleanupRecord state operationId objectType objectName policy xmin) := by
  refine ⟨h.operations_lt, h.operations_nodup, h.locks_lt, h.locks_nodup, h.locks_held,
    fun tuple htuple => ?_, ?_, fun tuple htuple => ?_, fun tuple htuple hpolicy => ?_,
    h.dropped_registered, h.dropped_safe⟩
  · rcases List.mem_append.mp htuple with htuple | htuple
    · exact h.records_registered tuple htuple
    · rw [List.mem_singleton] at htuple
      rw [htuple]
      exact hregistered
  · -- the new record id is above every other
    exact ListUpdate.nodup_map_append_singleton h.record_ids_nodup fun tuple htuple =>
      (h.record_ids_lt tuple htuple).ne
  · rcases List.mem_append.mp htuple with htuple | htuple
    · exact (h.record_ids_lt tuple htuple).trans (Nat.lt_succ_self _)
    · rw [List.mem_singleton] at htuple
      rw [htuple]
      exact Nat.lt_succ_self _
  · rcases List.mem_append.mp htuple with htuple | htuple
    · exact h.deferred_xmin tuple htuple hpolicy
    · rw [List.mem_singleton] at htuple
      rw [htuple] at hpolicy ⊢
      exact hdeferred hpolicy

/-- `RegisterOperationNeedingCleanup` by a transaction in progress: a fresh operation id,
whose lock no one holds, locked by the transaction. -/
theorem registerOperationNeedingCleanup (h : CleanupInvariant state) {transactionId : Nat}
    (hrunning : state.isRunning transactionId = true)
    (hregister : registerOperationNeedingCleanup transactionId state = some state') :
    CleanupInvariant state' := by
  unfold Operations.registerOperationNeedingCleanup at hregister
  dsimp only at hregister
  rcases tryLockOperationId_eq_some hregister with ⟨-, hheld⟩ | ⟨-, rfl⟩
  · exact absurd (h.locks_lt _ hheld) (lt_irrefl _)
  have hfresh : ∀ entry ∈ state.currentOperationId, entry.2 ≠ state.nextOperationId :=
    fun entry hentry => (h.operations_lt entry hentry).2.ne
  have hnodup : ((state.currentOperationId ++ [(transactionId, state.nextOperationId)]).map
      (·.2)).Nodup :=
    ListUpdate.nodup_map_append_singleton h.operations_nodup hfresh
  -- an operation registered before keeps its transaction
  have hsame : ∀ operationId, state.Registered operationId →
      ({ state with
          nextOperationId := state.nextOperationId + 1
          currentOperationId := state.currentOperationId ++
            [(transactionId, state.nextOperationId)] } : CleanupState).operationTransaction
          operationId = state.operationTransaction operationId := by
    rintro operationId ⟨registrar, hregistrar⟩
    rw [operationTransaction_eq_some h.operations_nodup hregistrar]
    exact operationTransaction_eq_some hnodup (List.mem_append_left _ hregistrar)
  refine ⟨fun entry hentry => ?_, hnodup, fun lock hlock => ?_, ?_, fun entry hentry hstatus => ?_,
    fun tuple htuple => ?_, h.record_ids_nodup, h.record_ids_lt,
    fun tuple htuple hpolicy => List.mem_append_left _ (h.deferred_xmin tuple htuple hpolicy),
    fun drop hdrop => ?_, fun drop hdrop => ?_⟩
  · rcases List.mem_append.mp hentry with hentry | hentry
    · have hlt := h.operations_lt entry hentry
      exact ⟨hlt.1, hlt.2.trans (Nat.lt_succ_self _)⟩
    · rw [List.mem_singleton] at hentry
      rw [hentry]
      exact ⟨(isRunning_iff.mp hrunning).1, Nat.lt_succ_self _⟩
  · rcases List.mem_append.mp hlock with hlock | hlock
    · exact (h.locks_lt lock hlock).trans (Nat.lt_succ_self _)
    · rw [List.mem_singleton] at hlock
      rw [hlock]
      exact Nat.lt_succ_self _
  · exact ListUpdate.nodup_map_append_singleton h.locks_nodup fun lock hlock =>
      (h.locks_lt lock hlock).ne
  · rcases List.mem_append.mp hentry with hentry | hentry
    · exact List.mem_append_left _ (h.locks_held entry hentry hstatus)
    · rw [List.mem_singleton] at hentry
      rw [hentry]
      exact List.mem_append_right _ (List.mem_singleton_self _)
  · obtain ⟨registrar, hregistrar⟩ := h.records_registered tuple htuple
    exact ⟨registrar, List.mem_append_left _ hregistrar⟩
  · obtain ⟨registrar, hregistrar⟩ := h.dropped_registered drop hdrop
    exact ⟨registrar, List.mem_append_left _ hregistrar⟩
  · intro cleaner hcleaner hother
    refine h.dropped_safe drop hdrop cleaner hcleaner ?_
    rw [← hsame _ (h.dropped_registered drop hdrop)]
    exact hother

/-! ### The loops over the records -/

/-- The registered operations and the records are those of `state`: a loop over the
records changes only statuses of transactions, locks, deletions and the drops. -/
def SameRecords (state state' : CleanupState) : Prop :=
  state'.currentOperationId = state.currentOperationId ∧
    state'.pgDistCleanup.map (·.record) = state.pgDistCleanup.map (·.record)

theorem SameRecords.refl (state : CleanupState) : SameRecords state state := ⟨rfl, rfl⟩

theorem SameRecords.trans {state'' : CleanupState} (h : SameRecords state state')
    (h' : SameRecords state' state'') : SameRecords state state'' :=
  ⟨h'.1.trans h.1, h'.2.trans h.2⟩

theorem SameRecords.registered {operationId : Nat} (h : SameRecords state state')
    (hregistered : state.Registered operationId) : state'.Registered operationId := by
  obtain ⟨registrar, hregistrar⟩ := hregistered
  exact ⟨registrar, h.1 ▸ hregistrar⟩

theorem registered_of_mem_records (h : CleanupInvariant state) {record : CleanupRecord}
    (hrecord : record ∈ state.pgDistCleanup.map (·.record)) : state.Registered record.operationId := by
  obtain ⟨tuple, htuple, rfl⟩ := List.mem_map.mp hrecord
  exact h.records_registered tuple htuple

theorem mem_records_of_mem_listCleanupRecords {transactionId : Nat} {record : CleanupRecord}
    (hrecord : record ∈ listCleanupRecords state transactionId) :
    record ∈ state.pgDistCleanup.map (·.record) := by
  obtain ⟨tuple, htuple, rfl⟩ := List.mem_map.mp hrecord
  exact List.mem_map_of_mem (List.mem_filter.mp htuple).1

theorem mem_sortCleanupRecordsByObjectType {records : List CleanupRecord} {record : CleanupRecord} :
    record ∈ sortCleanupRecordsByObjectType records ↔ record ∈ records :=
  (List.perm_insertionSort _ records).mem_iff

/-- One record of `FinalizeOperationNeedingCleanupOnSuccess`: drops it makes are the
operation's own. -/
theorem finalizeCleanupRecord (h : CleanupInvariant state) (tryDrop : CleanupRecord → Bool)
    (transactionId : Nat) {record : CleanupRecord} (hregistered : state.Registered record.operationId) :
    CleanupInvariant (finalizeCleanupRecord tryDrop transactionId state record) ∧
      SameRecords state (finalizeCleanupRecord tryDrop transactionId state record) := by
  unfold Operations.finalizeCleanupRecord
  split
  · split
    · -- dropped through a separate connection, with no cleaner
      have hdropped : CleanupInvariant (state.dropResource record none) :=
        h.dropResource hregistered fun _ hcleaner => by cases hcleaner
      exact ⟨hdropped.outsideTransaction.deleteRecord _ _, rfl, map_record_deleteRecord _ _ _⟩
    · exact ⟨h, SameRecords.refl _⟩
  · exact ⟨h.deleteRecord _ _, rfl, map_record_deleteRecord _ _ _⟩
  · exact ⟨h, SameRecords.refl _⟩

theorem exists_of_cleanupRecordExists {transactionId recordId : Nat}
    (hexists : cleanupRecordExists state transactionId recordId = true) :
    ∃ tuple ∈ state.pgDistCleanup, state.visibleTo transactionId tuple = true ∧
      tuple.record.recordId = recordId := by
  simp only [cleanupRecordExists, listCleanupRecords, List.any_map, List.any_filter,
    List.any_eq_true, Bool.and_eq_true, Function.comp_apply, beq_iff_eq] at hexists
  obtain ⟨tuple, htuple, hvisible, hid⟩ := hexists
  exact ⟨tuple, htuple, hvisible, hid⟩

/-- The drop a cleaner makes of a record it locked and still sees is safe: the lock
tells that the operation's transaction, if another one, has ended, and seeing a deferred
record that it committed. -/
theorem dropSafe_of_locked (h : CleanupInvariant state) {transactionId : Nat}
    {record : CleanupRecord} (hrecord : record ∈ state.pgDistCleanup.map (·.record))
    (hlock : Operations.tryLockOperationId state transactionId record.operationId = some state')
    (hexists : cleanupRecordExists state' transactionId record.recordId = true) :
    DropSafe state' ⟨record, some transactionId, state'.operationStatus record.operationId⟩ := by
  -- the lock changes the locks only
  have hsame : state'.transactions = state.transactions ∧
      state'.currentOperationId = state.currentOperationId ∧
      state'.pgDistCleanup = state.pgDistCleanup := by
    rcases tryLockOperationId_eq_some hlock with ⟨rfl, -⟩ | ⟨-, rfl⟩ <;> exact ⟨rfl, rfl, rfl⟩
  have hstatus : ∀ other, state'.status other = state.status other := fun other => by
    simp only [CleanupState.status, hsame.1]
  obtain ⟨registrar, hregistrar⟩ := registered_of_mem_records h hrecord
  have hoperation : state'.operationTransaction record.operationId = some registrar := by
    rw [show state'.operationTransaction record.operationId =
      state.operationTransaction record.operationId by simp only [operationTransaction, hsame.2.1]]
    exact operationTransaction_eq_some h.operations_nodup hregistrar
  intro cleaner hcleaner hother
  cases hcleaner
  have hne : registrar ≠ transactionId := fun heq => hother (by rw [hoperation, heq])
  simp only [operationStatus, hoperation, hstatus]
  refine ⟨fun hrunning => ?_, fun hdeferred => ?_⟩
  · -- the registrar in progress would hold the lock
    rw [h.tryLockOperationId_eq_none (h.locks_held _ hregistrar hrunning) hne] at hlock
    cases hlock
  · -- the record the cleaner sees is the deferred one, inserted by the registrar
    obtain ⟨tuple, htuple, hvisible, hid⟩ := exists_of_cleanupRecordExists hexists
    rw [hsame.2.2] at htuple
    obtain ⟨tuple', htuple', hrecord'⟩ := List.mem_map.mp hrecord
    have htupleEq : tuple = tuple' :=
      List.inj_on_of_nodup_map h.record_ids_nodup htuple htuple' (by rw [hid, ← hrecord'])
    subst htupleEq
    have hxmin := h.deferred_xmin tuple htuple (hrecord' ▸ hdeferred)
    rw [hrecord'] at hxmin
    have hregistrar' : registrar = tuple.xmin := by
      have := operationTransaction_eq_some h.operations_nodup hxmin
      rw [operationTransaction_eq_some h.operations_nodup hregistrar] at this
      exact Option.some.inj this
    subst hregistrar'
    simp only [visibleTo, hstatus, Bool.and_eq_true, Bool.or_eq_true, beq_iff_eq] at hvisible
    exact hvisible.1.resolve_left hne

/-- One record of a cleaner's loop. -/
theorem dropOrphanedResource (h : CleanupInvariant state) (tryDrop : CleanupRecord → Bool)
    (transactionId : Nat) {record : CleanupRecord}
    (hrecord : record ∈ state.pgDistCleanup.map (·.record)) :
    CleanupInvariant (dropOrphanedResource tryDrop transactionId state record) ∧
      SameRecords state (dropOrphanedResource tryDrop transactionId state record) := by
  unfold Operations.dropOrphanedResource
  cases hlock : Operations.tryLockOperationId state transactionId record.operationId with
  | none => exact ⟨h, SameRecords.refl _⟩
  | some locked =>
      dsimp only
      have hlocked := h.tryLockOperationId (registered_of_mem_records h hrecord) hlock
      have hsame : SameRecords state locked := by
        rcases tryLockOperationId_eq_some hlock with ⟨rfl, -⟩ | ⟨-, rfl⟩ <;> exact ⟨rfl, rfl⟩
      split_ifs with hmissing hdrop
      · exact ⟨hlocked, hsame⟩
      · have hexists : cleanupRecordExists locked transactionId record.recordId = true := by
          simpa using hmissing
        have hdropped := hlocked.dropResource (hsame.registered (registered_of_mem_records h hrecord))
          (h.dropSafe_of_locked hrecord hlock hexists)
        exact ⟨hdropped.deleteRecord _ _, hsame.trans ⟨rfl, map_record_deleteRecord _ _ _⟩⟩
      · exact ⟨hlocked, hsame⟩

/-- `FinalizeOperationNeedingCleanupOnSuccess`: the loop over the operation's records
keeps the invariant, as each record of it does. -/
theorem finalizeOperationNeedingCleanupOnSuccess (h : CleanupInvariant state)
    (tryDrop : CleanupRecord → Bool) {transactionId : Nat}
    (hfinalize : finalizeOperationNeedingCleanupOnSuccess tryDrop transactionId state = some state') :
    CleanupInvariant state' := by
  unfold Operations.finalizeOperationNeedingCleanupOnSuccess at hfinalize
  obtain ⟨operationId, -, rfl⟩ := Option.map_eq_some_iff.mp hfinalize
  -- the records listed at the start stay registered through the loop
  refine (EventRun.foldl_invariant (fun s => CleanupInvariant s ∧ SameRecords state s)
    ⟨h, SameRecords.refl _⟩ fun s record hrecord hs => ?_).1
  have hlisted := (List.mem_filter.mp (mem_sortCleanupRecordsByObjectType.mp hrecord)).1
  have hregistered : s.Registered record.operationId :=
    hs.2.registered (registered_of_mem_records h (mem_records_of_mem_listCleanupRecords hlisted))
  obtain ⟨hinv, hsame⟩ := hs.1.finalizeCleanupRecord tryDrop transactionId hregistered
  exact ⟨hinv, hs.2.trans hsame⟩

/-- `DropOrphanedResourcesForCleanup`: the loop over the records the cleaner lists keeps
the invariant, as each record of it does. -/
theorem dropOrphanedResourcesForCleanup (h : CleanupInvariant state)
    (tryDrop : CleanupRecord → Bool) (transactionId : Nat) :
    CleanupInvariant (dropOrphanedResourcesForCleanup tryDrop transactionId state) := by
  unfold Operations.dropOrphanedResourcesForCleanup
  -- the records listed at the start are still records of the table, undeleted or not
  refine (EventRun.foldl_invariant (fun s => CleanupInvariant s ∧ SameRecords state s)
    ⟨h, SameRecords.refl _⟩ fun s record hrecord hs => ?_).1
  have hlisted : record ∈ s.pgDistCleanup.map (·.record) := by
    rw [hs.2.2]
    exact mem_records_of_mem_listCleanupRecords (mem_sortCleanupRecordsByObjectType.mp hrecord)
  obtain ⟨hinv, hsame⟩ := hs.1.dropOrphanedResource tryDrop transactionId hlisted
  exact ⟨hinv, hs.2.trans hsame⟩

/-- `InsertCleanupOnSuccessRecordInCurrentTransaction`: the deferred record is inserted
by the transaction that registered its operation. -/
theorem insertCleanupOnSuccessRecordInCurrentTransaction (h : CleanupInvariant state)
    {transactionId objectType objectName : Nat}
    (hinsert : insertCleanupOnSuccessRecordInCurrentTransaction transactionId objectType
      objectName state = some state') :
    CleanupInvariant state' := by
  obtain ⟨operationId, hcurrent, rfl⟩ := Option.map_eq_some_iff.mp hinsert
  have hmem := mem_of_currentOperationOf_eq_some hcurrent
  exact h.insertCleanupRecord ⟨transactionId, hmem⟩ fun _ => hmem

/-- `InsertCleanupRecordOutsideTransaction`, for the policies its assertion allows. -/
theorem insertCleanupRecordOutsideTransaction (h : CleanupInvariant state)
    {transactionId objectType objectName : Nat} {policy : CleanupPolicy}
    (hpolicy : policy ≠ .deferredOnSuccess)
    (hinsert : insertCleanupRecordOutsideTransaction transactionId objectType objectName policy
      state = some state') :
    CleanupInvariant state' := by
  obtain ⟨operationId, hcurrent, rfl⟩ := Option.map_eq_some_iff.mp hinsert
  exact h.outsideTransaction.insertCleanupRecord
    ⟨transactionId, mem_of_currentOperationOf_eq_some hcurrent⟩ fun hdeferred => absurd hdeferred hpolicy

/-- Every event the coordinator can issue keeps the invariant. -/
theorem cleanupStep (h : CleanupInvariant state) (tryDrop : CleanupRecord → Bool)
    {event : CleanupEvent} (hissuable : event.issuable state = true)
    (hstep : cleanupStep tryDrop state event = some state') : CleanupInvariant state' := by
  cases event with
  | begin =>
      cases hstep
      exact h.beginTransaction
  | registerOperation => exact h.registerOperationNeedingCleanup hissuable hstep
  | insertOnSuccess => exact h.insertCleanupOnSuccessRecordInCurrentTransaction hstep
  | insertOutsideTransaction transactionId objectType objectName policy =>
      simp only [CleanupEvent.issuable, Bool.and_eq_true, bne_iff_ne] at hissuable
      exact h.insertCleanupRecordOutsideTransaction hissuable.2 hstep
  | finalizeOnSuccess => exact h.finalizeOperationNeedingCleanupOnSuccess tryDrop hstep
  | dropOrphanedResources transactionId =>
      cases hstep
      exact h.dropOrphanedResourcesForCleanup tryDrop transactionId
  | commit =>
      cases hstep
      exact h.endTransaction hissuable (by decide)
  | abort =>
      cases hstep
      exact h.endTransaction hissuable (by decide)

end CleanupInvariant

/-- Over every run of issuable events, a cleaner other than an operation's own
transaction drops the operation's resources only after that transaction ended, and a
deferred resource only after it committed. -/
theorem cleaner_drops_after_operation_ends (tryDrop : CleanupRecord → Bool)
    {events : List CleanupEvent} {state : CleanupState}
    (hissuable : EventRun.enabledRun (cleanupStep tryDrop) (fun state event => event.issuable state)
      initialCleanupState events = true)
    (hrun : runCleanupEvents tryDrop events initialCleanupState = some state) :
    ∀ drop ∈ state.dropped, ∀ cleaner, drop.cleaner = some cleaner →
      state.operationTransaction drop.record.operationId ≠ some cleaner →
        drop.operationStatus ≠ .inProgress ∧
          (drop.record.policy = .deferredOnSuccess → drop.operationStatus = .committed) := by
  have h : CleanupInvariant state :=
    EventRun.foldlM_invariant_of_enabledRun CleanupInvariant _
      (fun _ _ _ hissuable hs hstep => hs.cleanupStep tryDrop hissuable hstep)
      cleanupInvariant_initialCleanupState hissuable hrun
  exact h.dropped_safe

/-- A move registers its operation, records the old placement `7` for deferred drop,
finalizes and commits; the maintenance daemon's next transaction drops placement `7`. -/
def committedMoveEvents : List CleanupEvent :=
  [.begin, .registerOperation 0, .insertOnSuccess 0 1 7, .finalizeOnSuccess 0, .commit 0,
    .begin, .dropOrphanedResources 1, .commit 1]

theorem cleaner_drops_after_operation_ends_committed_move :
    ∃ state, runCleanupEvents (fun _ => true) committedMoveEvents initialCleanupState = some state ∧
      ⟨⟨1, 1, 1, 7, .deferredOnSuccess⟩, some 1, .committed⟩ ∈ state.dropped ∧
      ∀ drop ∈ state.dropped, ∀ cleaner, drop.cleaner = some cleaner →
        state.operationTransaction drop.record.operationId ≠ some cleaner →
          drop.operationStatus ≠ .inProgress ∧
            (drop.record.policy = .deferredOnSuccess → drop.operationStatus = .committed) := by
  obtain ⟨state, hrun⟩ := Option.isSome_iff_exists.mp (by decide +kernel :
    (runCleanupEvents (fun _ => true) committedMoveEvents initialCleanupState).isSome)
  have hdropped : ⟨⟨1, 1, 1, 7, .deferredOnSuccess⟩, some 1, .committed⟩ ∈ state.dropped := by
    rw [show state = _ from Option.some.inj (hrun.symm.trans rfl)]
    decide
  exact ⟨state, hrun, hdropped, cleaner_drops_after_operation_ends (fun _ => true)
    (by decide +kernel) hrun⟩

end Citus.Operations
