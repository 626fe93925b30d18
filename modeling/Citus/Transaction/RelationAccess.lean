import Citus.Connection.PlacementConnection
import Citus.Lib.Run
import Mathlib

/-!
# Relation accesses and foreign keys to reference tables

`relation_access_tracking.c` keeps, for the transaction, a bit set per relation: bits
0 to 2 record a SELECT, DML or DDL access, and bits 3 to 5 record that the access was
parallel. Reference and Citus local tables are recorded when a placement of theirs is
assigned to a connection (`RecordRelationAccessIfNonDistTable`); hash-distributed tables
when an execution of two or more tasks with a pool of more than one connection starts
(`StartDistributedExecution`, `RecordParallelRelationAccessForTaskList`). A hash-distributed
table `D` with a foreign key to a reference table `R` must not be accessed in parallel
around conflicting accesses to `R`:

* an access to `R` after a conflicting parallel access to `D` raises an error
  (`CheckConflictingRelationAccesses`); this holds over every run of a transaction
  (`parallelAccess_blocks_conflicting_reference_access`);
* a parallel access to `D` after a conflicting access to `R` raises an error if a
  parallel query ran before, and otherwise switches the session to sequential mode
  (`CheckConflictingParallelRelationAccesses`). The switch comes from
  `StartDistributedExecution`, after the executor fixed the execution's pool size, so
  the access it is meant to serialize still runs with the pool chosen for parallel mode
  (`executeTaskList_conflicting_access_keeps_pool`).

## Implementation notes

* The hash is an association list from relation ids to their bit sets; the GUC
  `citus.multi_shard_modify_mode` is part of the state, since the tracking sets it.
* `ShouldRecordRelationAccess` reads `citus.enforce_foreign_key_restrictions` and
  whether the session is in a transaction block or a coordinated transaction, both
  fixed for the transaction here.
* Citus tables are not partitioned on more than one level, so the partitions that
  `RecordParallelRelationAccess` recurses into are not partitioned themselves: the
  catalog carries that as a field, and the recursive call is the function without its
  partitioned-table branch.
* A task is the relations its fields name; its placement accesses are recorded in
  the order the executor assigns them to connections. Errors are their messages; the
  `DEBUG1` messages of a switch are not modelled.
-/

namespace Citus.RelationAccess

open Citus.PlacementConnection (ShardPlacementAccessType)

/-! ## The catalog -/

/-- A relation's kind, as far as the tracking asks `IsCitusTableType`. -/
inductive CitusTableKind
  | hashDistributed
  | otherDistributed
  | referenceTable
  | citusLocalTable
  | notCitusTable
  deriving DecidableEq, Repr

/-- `IsCitusTable`. -/
def CitusTableKind.isCitusTable : CitusTableKind → Bool
  | .notCitusTable => false
  | _ => true

/-- `IsCitusTableType(relationId, DISTRIBUTED_TABLE)`. -/
def CitusTableKind.isDistributedTable : CitusTableKind → Bool
  | .hashDistributed | .otherDistributed => true
  | _ => false

/-- What the tracking reads of the catalog and its cache entries. -/
structure RelationCatalog where
  tableKind : Nat → CitusTableKind
  referencingRelationsViaForeignKey : Nat → List Nat
  referencedRelationsViaForeignKey : Nat → List Nat
  partitionedTable : Nat → Bool
  partitionList : Nat → List Nat
  /-- `PartitionParentOid` of a partition; `none` when `PartitionTable` is false. -/
  partitionParentOid : Nat → Option Nat
  /-- `get_rel_name`; `none` for a relation a `DROP` already removed. -/
  relationName : Nat → Option String
  partitions_not_partitioned :
    ∀ relationId, ∀ partitionOid ∈ partitionList relationId, partitionedTable partitionOid = false

/-- The settings a transaction runs with. -/
structure AccessSettings where
  enforceForeignKeyRestrictions : Bool
  /-- `IsMultiStatementTransaction() || InCoordinatedTransaction()`. -/
  inTransactionBlock : Bool
  maxAdaptiveExecutorPoolSize : Nat

/-- `citus.multi_shard_modify_mode`. -/
inductive MultiShardConnectionType
  | parallelConnection
  | sequentialConnection
  deriving DecidableEq, Repr

/-- The transaction's `RelationAccessHash` and the session's connection mode. -/
structure RelationAccessState where
  relationAccessHash : List (Nat × Nat)
  multiShardConnectionType : MultiShardConnectionType
  deriving DecidableEq, Repr

/-- `RelationAccessMode`. -/
inductive RelationAccessMode
  | relationNotAccessed
  | relationReferenceAccessed
  | relationParallelAccessed
  deriving DecidableEq, Repr

/-! ## Recording -/

/-- The value of the enum `ShardPlacementAccessType`: the bit of the access type. -/
def accessTypeBit : ShardPlacementAccessType → Nat
  | .select => 0
  | .dml => 1
  | .ddl => 2

/-- `PARALLEL_MODE_FLAG_OFFSET`. -/
def parallelModeFlagOffset : Nat := 3

/-- `PARALLEL_ACCESS_MASK`: the three parallel bits. -/
def parallelAccessMask : Nat :=
  0 ||| 1 <<< (0 + parallelModeFlagOffset) ||| 1 <<< (1 + parallelModeFlagOffset) |||
    1 <<< (2 + parallelModeFlagOffset)

/-- `ShouldRecordRelationAccess`. -/
def shouldRecordRelationAccess (settings : AccessSettings) : Bool :=
  settings.enforceForeignKeyRestrictions && settings.inTransactionBlock

/-- `hash_search(HASH_ENTER)` on the relation's entry, zeroed when new, and `|=` of bits. -/
def setAccessBits (relationAccessHash : List (Nat × Nat)) (relationId bits : Nat) :
    List (Nat × Nat) :=
  match relationAccessHash.lookup relationId with
  | none => relationAccessHash ++ [(relationId, 0 ||| bits)]
  | some _ => relationAccessHash.map fun entry =>
      if entry.1 = relationId then (entry.1, entry.2 ||| bits) else entry

/-- `RecordPlacementAccessToCache`. -/
def recordPlacementAccessToCache (state : RelationAccessState) (relationId : Nat)
    (accessType : ShardPlacementAccessType) : RelationAccessState :=
  { state with relationAccessHash :=
      setAccessBits state.relationAccessHash relationId (1 <<< accessTypeBit accessType) }

/-- `RecordParallelRelationAccessToCache`: the access type's bit and its parallel bit. -/
def recordParallelRelationAccessToCache (state : RelationAccessState) (relationId : Nat)
    (placementAccess : ShardPlacementAccessType) : RelationAccessState :=
  let parallelRelationAccessBit := accessTypeBit placementAccess + parallelModeFlagOffset
  let bits := 1 <<< accessTypeBit placementAccess ||| 1 <<< parallelRelationAccessBit
  { state with relationAccessHash := setAccessBits state.relationAccessHash relationId bits }

/-- `ParallelQueryExecutedInTransaction`. -/
def parallelQueryExecutedInTransaction (settings : AccessSettings)
    (state : RelationAccessState) : Bool :=
  shouldRecordRelationAccess settings &&
    state.relationAccessHash.any fun entry => entry.2 &&& parallelAccessMask != 0

/-- `GetRelationAccessMode`. -/
def getRelationAccessMode (settings : AccessSettings) (state : RelationAccessState)
    (relationId : Nat) (accessType : ShardPlacementAccessType) : RelationAccessMode :=
  let parallelRelationAccessBit := accessTypeBit accessType + parallelModeFlagOffset
  if !shouldRecordRelationAccess settings then .relationNotAccessed
  else
    match state.relationAccessHash.lookup relationId with
    | none => .relationNotAccessed
    | some relationAcessMode =>
        if relationAcessMode &&& 1 <<< accessTypeBit accessType == 0 then .relationNotAccessed
        else if relationAcessMode &&& 1 <<< parallelRelationAccessBit != 0 then
          .relationParallelAccessed
        else .relationReferenceAccessed

/-- `PlacementAccessTypeToText`. -/
def placementAccessTypeToText : ShardPlacementAccessType → String
  | .select => "SELECT"
  | .dml => "DML"
  | .ddl => "DDL"

/-! ## Conflicts -/

section Conflicts

variable (catalog : RelationCatalog) (settings : AccessSettings) (state : RelationAccessState)

/-- The body of the loop of `HoldsConflictingLockWithReferencedRelations` for a reference
or Citus local table the relation has a foreign key to. -/
def referencedRelationConflict (placementAccess : ShardPlacementAccessType)
    (referencedRelation : Nat) : Option (Nat × ShardPlacementAccessType) :=
  -- a SELECT on the referenced table conflicts with DDL on the distributed table
  if placementAccess = .ddl ∧ getRelationAccessMode settings state referencedRelation .select ≠
      .relationNotAccessed then some (referencedRelation, .select)
  -- DML and DDL on it conflict with any parallel access
  else if getRelationAccessMode settings state referencedRelation .dml ≠ .relationNotAccessed then
    some (referencedRelation, .dml)
  else if getRelationAccessMode settings state referencedRelation .ddl ≠ .relationNotAccessed then
    some (referencedRelation, .ddl)
  else none

/-- `HoldsConflictingLockWithReferencedRelations`: the first referenced table, other than a
distributed one, with an access that conflicts with a parallel access of this type. -/
def holdsConflictingLockWithReferencedRelations (relationId : Nat)
    (placementAccess : ShardPlacementAccessType) : Option (Nat × ShardPlacementAccessType) :=
  (catalog.referencedRelationsViaForeignKey relationId).findSome? fun referencedRelation =>
    if (catalog.tableKind referencedRelation).isDistributedTable then none
    else referencedRelationConflict settings state placementAccess referencedRelation

/-- The body of the loop of `HoldsConflictingLockWithReferencingRelations` for a
hash-distributed table with a foreign key to the relation: the last rule that applies
sets the conflicting access type. -/
def referencingRelationConflict (placementAccess : ShardPlacementAccessType)
    (referencingRelation : Nat) : Option ShardPlacementAccessType :=
  let parallel := fun accessType =>
    getRelationAccessMode settings state referencingRelation accessType == .relationParallelAccessed
  match placementAccess with
  | .select => if parallel .ddl then some .ddl else none
  | .dml =>
      let conflictingAccessMode := if parallel .dml then some .dml else none
      if parallel .ddl then some .ddl else conflictingAccessMode
  | .ddl =>
      let conflictingAccessMode := if parallel .select then some .select else none
      let conflictingAccessMode := if parallel .dml then some .dml else conflictingAccessMode
      if parallel .ddl then some .ddl else conflictingAccessMode

/-- `HoldsConflictingLockWithReferencingRelations`: the first hash-distributed table with a
foreign key to the relation whose parallel access conflicts with this access. -/
def holdsConflictingLockWithReferencingRelations (relationId : Nat)
    (placementAccess : ShardPlacementAccessType) : Option (Nat × ShardPlacementAccessType) :=
  (catalog.referencingRelationsViaForeignKey relationId).findSome? fun referencingRelation =>
    if catalog.tableKind referencingRelation ≠ .hashDistributed then none
    else (referencingRelationConflict settings state placementAccess referencingRelation).map
      fun conflictingAccessMode => (referencingRelation, conflictingAccessMode)

/-- The name `%s` prints for `get_rel_name` of a relation. -/
def printedRelationName (relationId : Nat) : String :=
  (catalog.relationName relationId).getD "(null)"

/-- `CheckConflictingRelationAccesses`, for an access to a reference or Citus local table:
an error after a conflicting parallel access, and a switch to sequential mode when the
table is modified. -/
def checkConflictingRelationAccesses (relationId : Nat) (accessType : ShardPlacementAccessType) :
    Except String RelationAccessState :=
  if !settings.enforceForeignKeyRestrictions || !(catalog.tableKind relationId).isCitusTable then
    .ok state
  else if (catalog.tableKind relationId).isDistributedTable ||
      catalog.referencingRelationsViaForeignKey relationId = [] then .ok state
  else
    match holdsConflictingLockWithReferencingRelations catalog settings state relationId
        accessType with
    | some (conflictingRelationId, conflictingAccessType) =>
        let accessTypeText := placementAccessTypeToText accessType
        let conflictingAccessTypeText := placementAccessTypeToText conflictingAccessType
        let conflictingRelationName := printedRelationName catalog conflictingRelationId
        match catalog.relationName relationId with
        | none => .error s!"cannot execute {accessTypeText} on table because there was a parallel {conflictingAccessTypeText} access to distributed table \"{conflictingRelationName}\" in the same transaction"
        | some relationName => .error s!"cannot execute {accessTypeText} on table \"{relationName}\" because there was a parallel {conflictingAccessTypeText} access to distributed table \"{conflictingRelationName}\" in the same transaction"
    | none =>
        if accessType ≠ .select then
          let relationName := printedRelationName catalog relationId
          if parallelQueryExecutedInTransaction settings state then
            .error s!"cannot modify table \"{relationName}\" because there was a parallel operation on a distributed table"
          else if state.multiShardConnectionType = .parallelConnection then
            .ok { state with multiShardConnectionType := .sequentialConnection }
          else .ok state
        else .ok state

/-- `CheckConflictingParallelRelationAccesses`, for a parallel access to a hash-distributed
table with foreign keys: an error after a conflicting access to a referenced table when a
parallel query already ran, and otherwise a switch to sequential mode. -/
def checkConflictingParallelRelationAccesses (relationId : Nat)
    (accessType : ShardPlacementAccessType) : Except String RelationAccessState :=
  if !settings.enforceForeignKeyRestrictions || !(catalog.tableKind relationId).isCitusTable then
    .ok state
  else if !(catalog.tableKind relationId == .hashDistributed &&
      catalog.referencedRelationsViaForeignKey relationId != []) then .ok state
  else if state.multiShardConnectionType = .parallelConnection then
    match holdsConflictingLockWithReferencedRelations catalog settings state relationId
        accessType with
    | some (conflictingRelationId, conflictingAccessType) =>
        let relationName := printedRelationName catalog relationId
        let conflictingRelationName := printedRelationName catalog conflictingRelationId
        let accessTypeText := placementAccessTypeToText accessType
        let conflictingAccessTypeText := placementAccessTypeToText conflictingAccessType
        if parallelQueryExecutedInTransaction settings state then
          .error s!"cannot execute parallel {accessTypeText} on table \"{relationName}\" after {conflictingAccessTypeText} command on reference table \"{conflictingRelationName}\" because there is a foreign key between them and \"{conflictingRelationName}\" has been accessed in this transaction"
        else .ok { state with multiShardConnectionType := .sequentialConnection }
    | none => .ok state
  else .ok state

end Conflicts

/-! ## Recording accesses -/

section Record

variable (catalog : RelationCatalog) (settings : AccessSettings)

/-- `RecordRelationAccessIfNonDistTable` with `RecordRelationAccessBase`: an access to a
placement of a relation other than a distributed table. -/
def recordRelationAccessIfNonDistTable (state : RelationAccessState) (relationId : Nat)
    (accessType : ShardPlacementAccessType) : Except String RelationAccessState :=
  if !shouldRecordRelationAccess settings then .ok state
  else if (catalog.tableKind relationId).isDistributedTable then .ok state
  else do
    let state ← checkConflictingRelationAccesses catalog settings state relationId accessType
    pure (recordPlacementAccessToCache state relationId accessType)

/-- What `RecordParallelRelationAccess` records before the relation itself: each partition
of a partitioned table, or only the parent of a partition. -/
def recordPartitionsOrParent
    (recordPartition : RelationAccessState → Nat → Except String RelationAccessState)
    (state : RelationAccessState) (relationId : Nat) (placementAccess : ShardPlacementAccessType) :
    Except String RelationAccessState :=
  if catalog.partitionedTable relationId then
    (catalog.partitionList relationId).foldlM recordPartition state
  else
    match catalog.partitionParentOid relationId with
    | some parentOid => .ok (recordParallelRelationAccessToCache state parentOid placementAccess)
    | none => .ok state

/-- `RecordParallelRelationAccess`, given what it does for each partition of a
partitioned table. -/
def recordParallelRelationAccessWith
    (recordPartition : RelationAccessState → Nat → Except String RelationAccessState)
    (state : RelationAccessState) (relationId : Nat) (placementAccess : ShardPlacementAccessType) :
    Except String RelationAccessState :=
  if !shouldRecordRelationAccess settings then .ok state
  else do
    let state ← checkConflictingParallelRelationAccesses catalog settings state relationId
      placementAccess
    -- after a switch to sequential mode the executor is meant to serialize the execution
    if state.multiShardConnectionType = .sequentialConnection then pure state
    else do
      let state ← recordPartitionsOrParent catalog recordPartition state relationId placementAccess
      pure (recordParallelRelationAccessToCache state relationId placementAccess)

/-- `RecordParallelRelationAccess` on a partition, which is not partitioned itself. -/
def recordPartitionParallelAccess (placementAccess : ShardPlacementAccessType)
    (state : RelationAccessState) (partitionOid : Nat) : Except String RelationAccessState :=
  recordParallelRelationAccessWith catalog settings (fun state _ => .ok state) state partitionOid
    placementAccess

/-- `RecordParallelRelationAccess`. -/
def recordParallelRelationAccess (state : RelationAccessState) (relationId : Nat)
    (placementAccess : ShardPlacementAccessType) : Except String RelationAccessState :=
  recordParallelRelationAccessWith catalog settings
    (recordPartitionParallelAccess catalog settings placementAccess) state relationId placementAccess

/-- `TaskType`, as far as the tracking tells task types apart. -/
inductive TaskType
  | readTask
  | modifyTask
  | ddlTask
  | vacuumAnalyzeTask
  deriving DecidableEq, Repr

/-- A `Task`, by the relations its fields name. -/
structure Task where
  taskType : TaskType
  /-- `RelationIdForShard(anchorShardId)`; `none` for `INVALID_SHARD_ID`. -/
  anchorRelationId : Option Nat
  /-- The relation ids of `relationShardList`, in order. -/
  relationShardList : List Nat
  /-- `rowValuesLists != NIL`: a multi-row `INSERT`. -/
  hasRowValuesLists : Bool
  modifyWithSubquery : Bool
  /-- The relation and access type of each placement access, in the order the executor
  assigns them to connections (`AssignPlacementListToConnection`). -/
  placementAccesses : List (Nat × ShardPlacementAccessType)
  deriving DecidableEq, Repr

/-- The loop of `RecordRelationParallelSelectAccessForTask` and its siblings: each relation
of the list, skipping a repeat of the one just recorded (`lastRelationId`, first
`InvalidOid`). -/
def recordRelationShardList (placementAccess : ShardPlacementAccessType)
    (state : RelationAccessState) (relationShardList : List Nat) :
    Except String RelationAccessState :=
  Prod.fst <$> relationShardList.foldlM
    (fun (recorded : RelationAccessState × Nat) currentRelationId =>
      if currentRelationId = recorded.2 then pure recorded
      else do
        let state ← recordParallelRelationAccess catalog settings recorded.1 currentRelationId
          placementAccess
        pure (state, currentRelationId))
    (state, 0)

/-- `RecordRelationParallelSelectAccessForTask`. -/
def recordRelationParallelSelectAccessForTask (state : RelationAccessState) (task : Task) :
    Except String RelationAccessState :=
  if !shouldRecordRelationAccess settings then .ok state
  else recordRelationShardList catalog settings .select state task.relationShardList

/-- `RecordRelationParallelModifyAccessForTask`: the anchor's relation is modified, the
relations of a subquery are read. -/
def recordRelationParallelModifyAccessForTask (state : RelationAccessState) (task : Task) :
    Except String RelationAccessState :=
  if !shouldRecordRelationAccess settings then .ok state
  else do
    let state ← (match task.anchorRelationId with
      | some anchorRelationId => recordParallelRelationAccess catalog settings state anchorRelationId .dml
      | none => pure state)
    if task.modifyWithSubquery then
      recordRelationShardList catalog settings .select state task.relationShardList
    else pure state

/-- `RecordRelationParallelDDLAccessForTask`. -/
def recordRelationParallelDDLAccessForTask (state : RelationAccessState) (task : Task) :
    Except String RelationAccessState := do
  let state ← recordRelationShardList catalog settings .ddl state task.relationShardList
  match task.anchorRelationId with
  | some anchorRelationId => recordParallelRelationAccess catalog settings state anchorRelationId .ddl
  | none => pure state

/-- `RecordParallelRelationAccessForTaskList`: an execution of two or more tasks in parallel
mode records the accesses of its first task. -/
def recordParallelRelationAccessForTaskList (state : RelationAccessState) (taskList : List Task) :
    Except String RelationAccessState :=
  if state.multiShardConnectionType = .sequentialConnection then .ok state
  else if taskList.length < 2 then .ok state
  else
    match taskList with
    | [] => .ok state
    | firstTask :: _ =>
        match firstTask.taskType with
        | .readTask => recordRelationParallelSelectAccessForTask catalog settings state firstTask
        | .modifyTask =>
            -- multi-row INSERTs always run sequentially
            if firstTask.hasRowValuesLists then .ok state
            else do
              let state ← recordRelationParallelModifyAccessForTask catalog settings state firstTask
              recordRelationParallelSelectAccessForTask catalog settings state firstTask
        | _ => recordRelationParallelDDLAccessForTask catalog settings state firstTask

/-! ## Executions and transactions -/

/-- The placement accesses of a task, recorded as the executor assigns the task's placements
to connections. -/
def recordTaskPlacementAccesses (state : RelationAccessState) (task : Task) :
    Except String RelationAccessState :=
  task.placementAccesses.foldlM
    (fun state placementAccess =>
      recordRelationAccessIfNonDistTable catalog settings state placementAccess.1 placementAccess.2)
    state

/-- The pool size `AdaptiveExecutor` and `ExecuteTaskListExtended` fix for an execution. -/
def targetPoolSize (state : RelationAccessState) : Nat :=
  if state.multiShardConnectionType = .sequentialConnection then 1
  else settings.maxAdaptiveExecutorPoolSize

/-- An execution of a task list (`AdaptiveExecutor`, `ExecuteTaskListExtended`): the pool
size is fixed from the connection mode, `StartDistributedExecution` records the parallel
accesses when the pool has more than one connection, and each task's placement accesses
are recorded as the task is assigned to a connection. Returns the pool size. -/
def executeTaskList (state : RelationAccessState) (taskList : List Task) :
    Except String (Nat × RelationAccessState) := do
  let recorded ← (if 1 < targetPoolSize settings state then
      recordParallelRelationAccessForTaskList catalog settings state taskList
    else pure state)
  let placed ← taskList.foldlM (recordTaskPlacementAccesses catalog settings) recorded
  pure (targetPoolSize settings state, placed)

/-- A statement of a transaction: a `SET` of the connection mode, or an execution. -/
inductive TransactionEvent
  | setMultiShardModifyMode (multiShardConnectionType : MultiShardConnectionType)
  | execute (taskList : List Task)

/-- One statement: the state and the pool sizes of the executions so far. -/
def transactionStep (run : RelationAccessState × List Nat) :
    TransactionEvent → Except String (RelationAccessState × List Nat)
  | .setMultiShardModifyMode multiShardConnectionType =>
      .ok ({ run.1 with multiShardConnectionType }, run.2)
  | .execute taskList => do
      let (targetPoolSize, state) ← executeTaskList catalog settings run.1 taskList
      pure (state, run.2 ++ [targetPoolSize])

/-- A transaction from its first statement, in the mode the session starts it in. -/
def runTransaction (multiShardConnectionType : MultiShardConnectionType)
    (events : List TransactionEvent) : Except String (RelationAccessState × List Nat) :=
  events.foldlM (transactionStep catalog settings) (⟨[], multiShardConnectionType⟩, [])

end Record

/-! ## The tracking only adds bits -/

theorem and_one_shiftLeft_eq_zero (mode bit : Nat) :
    (mode &&& 1 <<< bit == 0) = !mode.testBit bit := by
  rw [Nat.one_shiftLeft, Nat.and_two_pow]
  cases mode.testBit bit <;> simp

/-- `GetRelationAccessMode` reports a parallel access exactly when the access type's bit and
its parallel bit are both set. -/
theorem getRelationAccessMode_eq_parallel_iff (settings : AccessSettings)
    (state : RelationAccessState) (relationId : Nat) (accessType : ShardPlacementAccessType) :
    getRelationAccessMode settings state relationId accessType = .relationParallelAccessed ↔
      shouldRecordRelationAccess settings = true ∧ ∃ mode,
        state.relationAccessHash.lookup relationId = some mode ∧
        mode.testBit (accessTypeBit accessType) = true ∧
        mode.testBit (accessTypeBit accessType + parallelModeFlagOffset) = true := by
  unfold getRelationAccessMode
  cases hrecord : shouldRecordRelationAccess settings
  · simp
  · cases hlookup : state.relationAccessHash.lookup relationId with
    | none => simp
    | some mode =>
        simp only [bne, and_one_shiftLeft_eq_zero, Bool.not_not]
        split_ifs <;> simp_all

theorem lookup_map_or (hash : List (Nat × Nat)) (relationId bits r : Nat) :
    (hash.map fun entry => if entry.1 = relationId then (entry.1, entry.2 ||| bits) else entry).lookup r =
      (hash.lookup r).map fun mode => if r = relationId then mode ||| bits else mode := by
  induction hash with
  | nil => rfl
  | cons entry rest ih =>
      obtain ⟨key, mode⟩ := entry
      by_cases hr : r = key
      · subst hr
        by_cases hkey : r = relationId <;> simp [hkey]
      · have hne : (r == key) = false := beq_false_of_ne hr
        by_cases hkey : key = relationId
        · subst hkey
          simp [List.lookup_cons, hne, ih]
        · simp [List.lookup_cons, hkey, hne, ih]

/-- The entry of the relation gets the bits, the other entries are unchanged. -/
theorem lookup_setAccessBits (hash : List (Nat × Nat)) (relationId bits r : Nat) :
    (setAccessBits hash relationId bits).lookup r =
      if r = relationId then some ((hash.lookup relationId).getD 0 ||| bits)
      else hash.lookup r := by
  unfold setAccessBits
  cases hlookup : hash.lookup relationId with
  | none =>
      rw [List.lookup_append]
      by_cases hr : r = relationId
      · subst hr
        simp [hlookup]
      · simp [hr, List.lookup_cons, beq_false_of_ne hr]
  | some mode =>
      rw [lookup_map_or]
      by_cases hr : r = relationId
      · subst hr
        simp [hlookup]
      · simp [hr]

/-- Every bit set in the first state is set in the second. -/
def KeepsAccesses (state state' : RelationAccessState) : Prop :=
  ∀ relationId mode, state.relationAccessHash.lookup relationId = some mode →
    ∃ bits, state'.relationAccessHash.lookup relationId = some (mode ||| bits)

theorem KeepsAccesses.refl (state : RelationAccessState) : KeepsAccesses state state :=
  fun _ mode hmode => ⟨0, by simp [hmode]⟩

theorem KeepsAccesses.trans {state state' state'' : RelationAccessState}
    (h : KeepsAccesses state state') (h' : KeepsAccesses state' state'') :
    KeepsAccesses state state'' := by
  intro relationId mode hmode
  obtain ⟨bits, hbits⟩ := h relationId mode hmode
  obtain ⟨bits', hbits'⟩ := h' relationId _ hbits
  exact ⟨bits ||| bits', by rw [hbits', Nat.or_assoc]⟩

theorem keepsAccesses_of_hash_eq {state state' : RelationAccessState}
    (h : state'.relationAccessHash = state.relationAccessHash) : KeepsAccesses state state' := by
  intro relationId mode hmode
  exact ⟨0, by simp [h, hmode]⟩

theorem keepsAccesses_of_setAccessBits {state state' : RelationAccessState} (relationId bits : Nat)
    (h : state'.relationAccessHash = setAccessBits state.relationAccessHash relationId bits) :
    KeepsAccesses state state' := by
  intro r mode hmode
  rw [h, lookup_setAccessBits]
  by_cases hr : r = relationId
  · subst hr
    exact ⟨bits, by simp [hmode]⟩
  · exact ⟨0, by simp [hr, hmode]⟩

/-- A parallel access, once recorded, stays recorded. -/
theorem KeepsAccesses.parallelAccessed {settings : AccessSettings}
    {state state' : RelationAccessState} (hkeeps : KeepsAccesses state state')
    {relationId : Nat} {accessType : ShardPlacementAccessType}
    (hparallel : getRelationAccessMode settings state relationId accessType = .relationParallelAccessed) :
    getRelationAccessMode settings state' relationId accessType = .relationParallelAccessed := by
  rw [getRelationAccessMode_eq_parallel_iff] at hparallel ⊢
  obtain ⟨hrecord, mode, hmode, haccess, hflag⟩ := hparallel
  obtain ⟨bits, hbits⟩ := hkeeps relationId mode hmode
  exact ⟨hrecord, mode ||| bits, hbits, by simp [Nat.testBit_or, haccess],
    by simp [Nat.testBit_or, hflag]⟩

section Keeps

variable {catalog : RelationCatalog} {settings : AccessSettings}

theorem checkConflictingRelationAccesses_hash {state state' : RelationAccessState}
    {relationId : Nat} {accessType : ShardPlacementAccessType}
    (h : checkConflictingRelationAccesses catalog settings state relationId accessType = .ok state') :
    state'.relationAccessHash = state.relationAccessHash := by
  unfold checkConflictingRelationAccesses at h
  repeat' split at h
  all_goals cases h <;> rfl

theorem checkConflictingParallelRelationAccesses_hash {state state' : RelationAccessState}
    {relationId : Nat} {accessType : ShardPlacementAccessType}
    (h : checkConflictingParallelRelationAccesses catalog settings state relationId accessType =
      .ok state') :
    state'.relationAccessHash = state.relationAccessHash := by
  unfold checkConflictingParallelRelationAccesses at h
  repeat' split at h
  all_goals cases h <;> rfl

theorem keepsAccesses_recordRelationAccessIfNonDistTable {state state' : RelationAccessState}
    {relationId : Nat} {accessType : ShardPlacementAccessType}
    (h : recordRelationAccessIfNonDistTable catalog settings state relationId accessType = .ok state') :
    KeepsAccesses state state' := by
  unfold recordRelationAccessIfNonDistTable at h
  split_ifs at h
  · cases h
    exact .refl state
  · cases h
    exact .refl state
  · obtain ⟨checked, hchecked, hrecord⟩ := EventRun.except_bind_eq_ok h
    cases hrecord
    exact (keepsAccesses_of_hash_eq (checkConflictingRelationAccesses_hash hchecked)).trans
      (keepsAccesses_of_setAccessBits relationId _ rfl)

theorem keepsAccesses_recordPartitionsOrParent
    {recordPartition : RelationAccessState → Nat → Except String RelationAccessState}
    (hpartition : ∀ state partitionOid state', recordPartition state partitionOid = .ok state' →
      KeepsAccesses state state')
    {state state' : RelationAccessState} {relationId : Nat}
    {placementAccess : ShardPlacementAccessType}
    (h : recordPartitionsOrParent catalog recordPartition state relationId placementAccess =
      .ok state') :
    KeepsAccesses state state' := by
  unfold recordPartitionsOrParent at h
  split_ifs at h
  · exact EventRun.foldlM_except_invariant_of_ok (KeepsAccesses state)
      (fun s partitionOid s' hs hstep => hs.trans (hpartition s partitionOid s' hstep))
      (.refl state) h
  · split at h <;> cases h
    · exact keepsAccesses_of_setAccessBits _ _ rfl
    · exact .refl state

theorem keepsAccesses_recordParallelRelationAccessWith
    {recordPartition : RelationAccessState → Nat → Except String RelationAccessState}
    (hpartition : ∀ state partitionOid state', recordPartition state partitionOid = .ok state' →
      KeepsAccesses state state')
    {state state' : RelationAccessState} {relationId : Nat}
    {placementAccess : ShardPlacementAccessType}
    (h : recordParallelRelationAccessWith catalog settings recordPartition state relationId
      placementAccess = .ok state') :
    KeepsAccesses state state' := by
  unfold recordParallelRelationAccessWith at h
  split_ifs at h
  · cases h
    exact .refl state
  · obtain ⟨checked, hchecked, hrest⟩ := EventRun.except_bind_eq_ok h
    have hkeepsChecked :=
      keepsAccesses_of_hash_eq (checkConflictingParallelRelationAccesses_hash hchecked)
    split_ifs at hrest
    · cases hrest
      exact hkeepsChecked
    · obtain ⟨recorded, hrecorded, hlast⟩ := EventRun.except_bind_eq_ok hrest
      cases hlast
      exact hkeepsChecked.trans ((keepsAccesses_recordPartitionsOrParent hpartition hrecorded).trans
        (keepsAccesses_of_setAccessBits relationId _ rfl))

theorem keepsAccesses_recordParallelRelationAccess {state state' : RelationAccessState}
    {relationId : Nat} {placementAccess : ShardPlacementAccessType}
    (h : recordParallelRelationAccess catalog settings state relationId placementAccess = .ok state') :
    KeepsAccesses state state' := by
  refine keepsAccesses_recordParallelRelationAccessWith (fun s partitionOid s' hstep => ?_) h
  refine keepsAccesses_recordParallelRelationAccessWith (fun s _ s' hpartition => ?_) hstep
  cases hpartition
  exact .refl s

theorem keepsAccesses_recordRelationShardList {placementAccess : ShardPlacementAccessType}
    {state state' : RelationAccessState} {relationShardList : List Nat}
    (h : recordRelationShardList catalog settings placementAccess state relationShardList = .ok state') :
    KeepsAccesses state state' := by
  obtain ⟨recorded, hrecorded, rfl⟩ := EventRun.except_map_eq_ok h
  refine EventRun.foldlM_except_invariant_of_ok (fun recorded => KeepsAccesses state recorded.1)
    (fun recorded currentRelationId recorded' hkeeps hstep => ?_) (.refl state) hrecorded
  split_ifs at hstep
  · cases hstep
    exact hkeeps
  · obtain ⟨next, hnext, hpair⟩ := EventRun.except_bind_eq_ok hstep
    cases hpair
    exact hkeeps.trans (keepsAccesses_recordParallelRelationAccess hnext)

theorem keepsAccesses_recordRelationParallelSelectAccessForTask {state state' : RelationAccessState}
    {task : Task}
    (h : recordRelationParallelSelectAccessForTask catalog settings state task = .ok state') :
    KeepsAccesses state state' := by
  unfold recordRelationParallelSelectAccessForTask at h
  split_ifs at h
  · cases h
    exact .refl state
  · exact keepsAccesses_recordRelationShardList h

theorem keepsAccesses_recordRelationParallelModifyAccessForTask {state state' : RelationAccessState}
    {task : Task}
    (h : recordRelationParallelModifyAccessForTask catalog settings state task = .ok state') :
    KeepsAccesses state state' := by
  unfold recordRelationParallelModifyAccessForTask at h
  split at h
  · cases h
    exact .refl state
  · obtain ⟨anchored, hanchored, hrest⟩ := EventRun.except_bind_eq_ok h
    have hkeepsAnchored : KeepsAccesses state anchored := by
      split at hanchored
      · exact keepsAccesses_recordParallelRelationAccess hanchored
      · cases hanchored
        exact .refl state
    split_ifs at hrest
    · exact hkeepsAnchored.trans (keepsAccesses_recordRelationShardList hrest)
    · cases hrest
      exact hkeepsAnchored

theorem keepsAccesses_recordRelationParallelDDLAccessForTask {state state' : RelationAccessState}
    {task : Task}
    (h : recordRelationParallelDDLAccessForTask catalog settings state task = .ok state') :
    KeepsAccesses state state' := by
  unfold recordRelationParallelDDLAccessForTask at h
  obtain ⟨listed, hlisted, hrest⟩ := EventRun.except_bind_eq_ok h
  refine (keepsAccesses_recordRelationShardList hlisted).trans ?_
  split at hrest
  · exact keepsAccesses_recordParallelRelationAccess hrest
  · cases hrest
    exact .refl _

theorem keepsAccesses_recordParallelRelationAccessForTaskList {state state' : RelationAccessState}
    {taskList : List Task}
    (h : recordParallelRelationAccessForTaskList catalog settings state taskList = .ok state') :
    KeepsAccesses state state' := by
  unfold recordParallelRelationAccessForTaskList at h
  split_ifs at h
  · cases h
    exact .refl state
  · cases h
    exact .refl state
  · split at h
    · cases h
      exact .refl state
    · split at h
      · exact keepsAccesses_recordRelationParallelSelectAccessForTask h
      · split_ifs at h
        · cases h
          exact .refl state
        · obtain ⟨modified, hmodified, hselected⟩ := EventRun.except_bind_eq_ok h
          exact (keepsAccesses_recordRelationParallelModifyAccessForTask hmodified).trans
            (keepsAccesses_recordRelationParallelSelectAccessForTask hselected)
      · exact keepsAccesses_recordRelationParallelDDLAccessForTask h

theorem keepsAccesses_recordTaskPlacementAccesses {state state' : RelationAccessState}
    {task : Task} (h : recordTaskPlacementAccesses catalog settings state task = .ok state') :
    KeepsAccesses state state' :=
  EventRun.foldlM_except_invariant_of_ok (KeepsAccesses state)
    (fun _ _ _ hs hstep => hs.trans (keepsAccesses_recordRelationAccessIfNonDistTable hstep))
    (.refl state) h

theorem keepsAccesses_executeTaskList {state state' : RelationAccessState} {taskList : List Task}
    {poolSize : Nat}
    (h : executeTaskList catalog settings state taskList = .ok (poolSize, state')) :
    KeepsAccesses state state' := by
  unfold executeTaskList at h
  obtain ⟨recorded, hrecorded, hrest⟩ := EventRun.except_bind_eq_ok h
  obtain ⟨placed, hplaced, hpair⟩ := EventRun.except_bind_eq_ok hrest
  cases hpair
  have hkeepsRecorded : KeepsAccesses state recorded := by
    split_ifs at hrecorded
    · exact keepsAccesses_recordParallelRelationAccessForTaskList hrecorded
    · cases hrecorded
      exact .refl state
  exact hkeepsRecorded.trans (EventRun.foldlM_except_invariant_of_ok (KeepsAccesses recorded)
    (fun _ _ _ hs hstep => hs.trans (keepsAccesses_recordTaskPlacementAccesses hstep))
    (.refl recorded) hplaced)

theorem keepsAccesses_transactionStep {run run' : RelationAccessState × List Nat}
    {event : TransactionEvent} (h : transactionStep catalog settings run event = .ok run') :
    KeepsAccesses run.1 run'.1 := by
  cases event with
  | setMultiShardModifyMode multiShardConnectionType =>
      cases h
      exact keepsAccesses_of_hash_eq rfl
  | execute taskList =>
      obtain ⟨⟨poolSize, state⟩, hexecuted, hrun⟩ := EventRun.except_bind_eq_ok h
      cases hrun
      exact keepsAccesses_executeTaskList hexecuted

end Keeps

/-! ## The regression test's foreign key -/

/-- The tables of the regression test `foreign_key_restriction_enforcement`: the reference
table `reference_table` (relation 1) and the hash-distributed table `on_update_fkey_table`
(relation 2), which has a foreign key to it. -/
def foreignKeyCatalog : RelationCatalog where
  tableKind relationId :=
    if relationId = 1 then .referenceTable
    else if relationId = 2 then .hashDistributed else .notCitusTable
  referencingRelationsViaForeignKey relationId := if relationId = 1 then [2] else []
  referencedRelationsViaForeignKey relationId := if relationId = 2 then [1] else []
  partitionedTable _ := false
  partitionList _ := []
  partitionParentOid _ := none
  relationName relationId :=
    if relationId = 1 then some "reference_table"
    else if relationId = 2 then some "on_update_fkey_table" else none
  partitions_not_partitioned _ _ _ := rfl

/-- A transaction block with the restrictions enforced and the default
`citus.max_adaptive_executor_pool_size`. -/
def foreignKeySettings : AccessSettings := ⟨true, true, 16⟩

/-- `SELECT` on `reference_table`: one task on its one shard. -/
def selectReferenceTable : Task := ⟨.readTask, some 1, [1], false, false, [(1, .select)]⟩

/-- `ALTER TABLE on_update_fkey_table ADD COLUMN x int`: a DDL task for each shard. -/
def alterDistributedTable : Task := ⟨.ddlTask, some 2, [], false, false, [(2, .ddl)]⟩

/-- The regression test's case 1.6 in parallel mode: the `SELECT` on the reference table
makes the DDL on the distributed table conflict with it, and the DDL is neither refused
nor run with one connection per node: it runs with the pool of parallel mode, and only the
statements after it run sequentially. -/
theorem executeTaskList_conflicting_access_keeps_pool :
    holdsConflictingLockWithReferencedRelations foreignKeyCatalog foreignKeySettings
        ⟨[(1, 1)], .parallelConnection⟩ 2 .ddl = some (1, .select) ∧
      runTransaction foreignKeyCatalog foreignKeySettings .parallelConnection
          [.execute [selectReferenceTable],
            .execute [alterDistributedTable, alterDistributedTable]] =
        .ok (⟨[(1, 1)], .sequentialConnection⟩, [16, 16]) :=
  ⟨rfl, rfl⟩

/-! ## An access to a reference table after a conflicting parallel access -/

/-- Whether a parallel access of the first type to a hash-distributed table conflicts with a
later access of the second type to a table it has a foreign key to: the rules of
`HoldsConflictingLockWithReferencingRelations`. -/
def parallelAccessConflicts : ShardPlacementAccessType → ShardPlacementAccessType → Bool
  | .ddl, _ => true
  | .dml, .dml | .dml, .ddl => true
  | .select, .ddl => true
  | _, _ => false

/-- A hash-distributed table with a foreign key to a reference or Citus local table. -/
structure ForeignKeyToReferenceTable (catalog : RelationCatalog)
    (referencedRelation distributedRelation : Nat) : Prop where
  referenced_isCitusTable : (catalog.tableKind referencedRelation).isCitusTable = true
  referenced_not_distributed : (catalog.tableKind referencedRelation).isDistributedTable = false
  distributed_hash : catalog.tableKind distributedRelation = .hashDistributed
  foreign_key : distributedRelation ∈ catalog.referencingRelationsViaForeignKey referencedRelation

section Blocks

variable {catalog : RelationCatalog} {settings : AccessSettings}
  {referencedRelation distributedRelation : Nat} {parallelAccess placementAccess : ShardPlacementAccessType}
  {state : RelationAccessState}

theorem referencingRelationConflict_isSome
    (hparallel : getRelationAccessMode settings state distributedRelation parallelAccess =
      .relationParallelAccessed)
    (hconflict : parallelAccessConflicts parallelAccess placementAccess = true) :
    (referencingRelationConflict settings state placementAccess distributedRelation).isSome := by
  unfold referencingRelationConflict
  cases parallelAccess <;> cases placementAccess <;> simp_all [parallelAccessConflicts] <;>
    split_ifs <;> simp

theorem holdsConflictingLockWithReferencingRelations_isSome
    (hforeignKey : ForeignKeyToReferenceTable catalog referencedRelation distributedRelation)
    (hparallel : getRelationAccessMode settings state distributedRelation parallelAccess =
      .relationParallelAccessed)
    (hconflict : parallelAccessConflicts parallelAccess placementAccess = true) :
    (holdsConflictingLockWithReferencingRelations catalog settings state referencedRelation
      placementAccess).isSome := by
  have hsome := referencingRelationConflict_isSome hparallel hconflict
  unfold holdsConflictingLockWithReferencingRelations
  rw [Option.isSome_iff_ne_none, Ne, List.findSome?_eq_none_iff]
  intro hnone
  have hdistributed := hnone distributedRelation hforeignKey.foreign_key
  rw [if_neg (by simp [hforeignKey.distributed_hash]), Option.map_eq_none_iff] at hdistributed
  simp [hdistributed] at hsome

theorem checkConflictingRelationAccesses_ne_ok
    (henforce : settings.enforceForeignKeyRestrictions = true)
    (hforeignKey : ForeignKeyToReferenceTable catalog referencedRelation distributedRelation)
    (hparallel : getRelationAccessMode settings state distributedRelation parallelAccess =
      .relationParallelAccessed)
    (hconflict : parallelAccessConflicts parallelAccess placementAccess = true)
    (state' : RelationAccessState) :
    checkConflictingRelationAccesses catalog settings state referencedRelation placementAccess ≠
      .ok state' := by
  obtain ⟨⟨conflictingRelationId, conflictingAccessType⟩, hholds⟩ := Option.isSome_iff_exists.mp
    (holdsConflictingLockWithReferencingRelations_isSome hforeignKey hparallel hconflict)
  have hreferencing : catalog.referencingRelationsViaForeignKey referencedRelation ≠ [] :=
    List.ne_nil_of_mem hforeignKey.foreign_key
  unfold checkConflictingRelationAccesses
  rw [if_neg (by simp [henforce, hforeignKey.referenced_isCitusTable]),
    if_neg (by simp [hforeignKey.referenced_not_distributed, hreferencing]), hholds]
  dsimp only
  split <;> nofun

theorem recordRelationAccessIfNonDistTable_ne_ok
    (hrecord : shouldRecordRelationAccess settings = true)
    (hforeignKey : ForeignKeyToReferenceTable catalog referencedRelation distributedRelation)
    (hparallel : getRelationAccessMode settings state distributedRelation parallelAccess =
      .relationParallelAccessed)
    (hconflict : parallelAccessConflicts parallelAccess placementAccess = true)
    (state' : RelationAccessState) :
    recordRelationAccessIfNonDistTable catalog settings state referencedRelation placementAccess ≠
      .ok state' := by
  have henforce : settings.enforceForeignKeyRestrictions = true := by
    simp only [shouldRecordRelationAccess, Bool.and_eq_true] at hrecord
    exact hrecord.1
  unfold recordRelationAccessIfNonDistTable
  rw [if_neg (by simp [hrecord]), if_neg (by simp [hforeignKey.referenced_not_distributed])]
  intro h
  obtain ⟨checked, hchecked, -⟩ := EventRun.except_bind_eq_ok h
  exact checkConflictingRelationAccesses_ne_ok henforce hforeignKey hparallel hconflict checked
    hchecked

/-- An execution with a task that accesses the reference table conflictingly fails, whatever
it records before that task. -/
theorem executeTaskList_ne_ok
    (hrecord : shouldRecordRelationAccess settings = true)
    (hforeignKey : ForeignKeyToReferenceTable catalog referencedRelation distributedRelation)
    (hparallel : getRelationAccessMode settings state distributedRelation parallelAccess =
      .relationParallelAccessed)
    (hconflict : parallelAccessConflicts parallelAccess placementAccess = true)
    {taskList : List Task} {task : Task} (htask : task ∈ taskList)
    (haccess : (referencedRelation, placementAccess) ∈ task.placementAccesses)
    (result : Nat × RelationAccessState) :
    executeTaskList catalog settings state taskList ≠ .ok result := by
  -- the parallel access survives every step the execution takes before the task
  let Parallel := fun state : RelationAccessState =>
    getRelationAccessMode settings state distributedRelation parallelAccess = .relationParallelAccessed
  have hrecordKeeps : ∀ s (access : Nat × ShardPlacementAccessType) s', Parallel s →
      recordRelationAccessIfNonDistTable catalog settings s access.1 access.2 = .ok s' →
      Parallel s' :=
    fun _ _ _ hs hstep => (keepsAccesses_recordRelationAccessIfNonDistTable hstep).parallelAccessed hs
  have htaskKeeps : ∀ s task s', Parallel s →
      recordTaskPlacementAccesses catalog settings s task = .ok s' → Parallel s' :=
    fun _ _ _ hs hstep => (keepsAccesses_recordTaskPlacementAccesses hstep).parallelAccessed hs
  have htaskFails : ∀ s s', Parallel s →
      recordTaskPlacementAccesses catalog settings s task ≠ .ok s' := by
    intro s s' hs
    exact EventRun.foldlM_except_ne_ok_of_mem Parallel hrecordKeeps
      (fun s s' hs => recordRelationAccessIfNonDistTable_ne_ok hrecord hforeignKey hs hconflict s')
      haccess hs s'
  unfold executeTaskList
  intro h
  obtain ⟨recorded, hrecorded, hrest⟩ := EventRun.except_bind_eq_ok h
  obtain ⟨placed, hplaced, -⟩ := EventRun.except_bind_eq_ok hrest
  have hkeepsRecorded : KeepsAccesses state recorded := by
    split_ifs at hrecorded
    · exact keepsAccesses_recordParallelRelationAccessForTaskList hrecorded
    · cases hrecorded
      exact .refl state
  exact EventRun.foldlM_except_ne_ok_of_mem Parallel htaskKeeps htaskFails htask
    (hkeepsRecorded.parallelAccessed hparallel) placed hplaced

/-- Over every run of a transaction: once a hash-distributed table has a parallel access, a
later statement that accesses a reference or Citus local table the distributed table has a
foreign key to, in a way that conflicts with that access, fails, and so does the run. -/
theorem parallelAccess_blocks_conflicting_reference_access
    (hrecord : shouldRecordRelationAccess settings = true)
    (hforeignKey : ForeignKeyToReferenceTable catalog referencedRelation distributedRelation)
    (hparallel : getRelationAccessMode settings state distributedRelation parallelAccess =
      .relationParallelAccessed)
    (hconflict : parallelAccessConflicts parallelAccess placementAccess = true)
    {events : List TransactionEvent} {taskList : List Task}
    (hexecute : .execute taskList ∈ events) {task : Task} (htask : task ∈ taskList)
    (haccess : (referencedRelation, placementAccess) ∈ task.placementAccesses)
    (poolSizes : List Nat) (result : RelationAccessState × List Nat) :
    events.foldlM (transactionStep catalog settings) (state, poolSizes) ≠ .ok result := by
  let Parallel := fun run : RelationAccessState × List Nat =>
    getRelationAccessMode settings run.1 distributedRelation parallelAccess =
      .relationParallelAccessed
  have hstepKeeps : ∀ run event run', Parallel run →
      transactionStep catalog settings run event = .ok run' → Parallel run' :=
    fun _ _ _ hrun hstep => (keepsAccesses_transactionStep hstep).parallelAccessed hrun
  have hexecuteFails : ∀ run run', Parallel run →
      transactionStep catalog settings run (.execute taskList) ≠ .ok run' := by
    intro run run' hrun h
    obtain ⟨executed, hexecuted, -⟩ := EventRun.except_bind_eq_ok h
    exact executeTaskList_ne_ok hrecord hforeignKey hrun hconflict htask haccess executed hexecuted
  exact EventRun.foldlM_except_ne_ok_of_mem Parallel hstepKeeps hexecuteFails hexecute hparallel
    result

theorem parallelAccess_blocks_conflicting_reference_access_after_alter :
    runTransaction foreignKeyCatalog foreignKeySettings .parallelConnection
        [.execute [alterDistributedTable, alterDistributedTable]] =
        .ok (⟨[(2, 36)], .parallelConnection⟩, [16]) ∧
      shouldRecordRelationAccess foreignKeySettings = true ∧
      ForeignKeyToReferenceTable foreignKeyCatalog 1 2 ∧
      getRelationAccessMode foreignKeySettings ⟨[(2, 36)], .parallelConnection⟩ 2 .ddl =
        .relationParallelAccessed ∧
      parallelAccessConflicts .ddl .select = true ∧
      ∀ result, [TransactionEvent.execute [selectReferenceTable]].foldlM
        (transactionStep foreignKeyCatalog foreignKeySettings)
        (⟨[(2, 36)], .parallelConnection⟩, [16]) ≠ .ok result := by
  have hforeignKey : ForeignKeyToReferenceTable foreignKeyCatalog 1 2 := ⟨rfl, rfl, rfl, by decide⟩
  have hparallel : getRelationAccessMode foreignKeySettings ⟨[(2, 36)], .parallelConnection⟩ 2
      .ddl = .relationParallelAccessed := rfl
  exact ⟨rfl, rfl, hforeignKey, hparallel, rfl,
    parallelAccess_blocks_conflicting_reference_access rfl hforeignKey hparallel rfl
      (List.mem_singleton_self _) (List.mem_singleton_self _) (List.mem_singleton_self _) [16]⟩

end Blocks

end Citus.RelationAccess
