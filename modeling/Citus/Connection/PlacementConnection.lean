import Citus.Shard.Interval
import Citus.Lib.Run
import Mathlib

/-!
# Connections of placements within a transaction

`placement_connection.c` remembers, for the transaction, which connection accessed each
shard placement and whether it modified it. Placements of hash-distributed and reference
tables share one `ConnectionReference` with their co-located placements (same node,
colocation group and representative value); other placements have their own.
`FindPlacementListConnection` picks the connection a list of placement accesses must use,
or errors, and `AssignPlacementListToConnection` records the accesses against the
connection the caller then uses: the one found, or any when none was found.

The header of `FindPlacementListConnection` states its rules: a placement modified in
the transaction is accessed over the connection that modified it, and a placement only
read is changed by DDL over the connection that read it. The first holds over every
run of the two functions (`placementConnection_pinned_after_write`). The second does
not: the single pass over the list only checks for conflicting writes once it has met a
modifying connection, and the assignment then moves a placement read over one connection
to another for its DDL (`assignPlacementListToConnection_ddl_over_second_connection`).

## Implementation notes

* The hashes are total functions: `FindOrCreatePlacementEntry` creates an absent entry
  with the values they return, so creating one is not visible.
* A connection is its id and user; which connections are claimed exclusively is read at
  each call.
* The shard hash of placements (for invalidation) and the relation access record of
  `AssignPlacementListToConnection` are not modelled.
-/

namespace Citus.PlacementConnection

open Citus.Shard (PartitionMethod)

/-- `ShardPlacementAccessType`. -/
inductive ShardPlacementAccessType
  | select
  | dml
  | ddl
  deriving DecidableEq, Repr

/-- A `ShardPlacement`, by the fields these functions read. -/
structure ShardPlacement where
  placementId : Nat
  shardId : Nat
  partitionMethod : PartitionMethod
  nodeId : Nat
  colocationGroupId : Nat
  representativeValue : Nat
  deriving DecidableEq, Repr

/-- `ShardPlacementAccess`. -/
structure ShardPlacementAccess where
  placement : ShardPlacement
  accessType : ShardPlacementAccessType
  deriving DecidableEq, Repr

/-- A `MultiConnection`, by its identity and its user. -/
structure MultiConnection where
  connectionId : Nat
  user : String
  deriving DecidableEq, Repr

/-- `INVALID_SHARD_ID`. -/
def invalidShardId : Nat := 0

/-- `FORCE_NEW_CONNECTION`. -/
def forceNewConnection : Nat := 1

/-- `ConnectionReference`, by the fields these functions read. -/
structure ConnectionReference where
  userName : String
  connection : Option MultiConnection
  hadDML : Bool
  hadDDL : Bool
  deriving DecidableEq, Repr

/-- `ColocatedPlacementsHashKey`. -/
structure ColocatedPlacementsHashKey where
  nodeId : Nat
  colocationGroupId : Nat
  representativeValue : Nat
  deriving DecidableEq, Repr

/-- The connection reference of a placement entry: the co-located placements' one, or
the placement's own. -/
inductive ReferenceKey
  | colocated (key : ColocatedPlacementsHashKey)
  | placement (placementId : Nat)
  deriving DecidableEq, Repr

/-- The key of the co-located placements, for hash-distributed and reference tables. -/
def ShardPlacement.colocatedKey? (placement : ShardPlacement) :
    Option ColocatedPlacementsHashKey :=
  if placement.partitionMethod = .hash ∨ placement.partitionMethod = .none then
    some ⟨placement.nodeId, placement.colocationGroupId, placement.representativeValue⟩
  else none

/-- The reference `FindOrCreatePlacementEntry` gives the placement's entry. -/
def ShardPlacement.referenceKey (placement : ShardPlacement) : ReferenceKey :=
  match placement.colocatedKey? with
  | some key => .colocated key
  | none => .placement placement.placementId

/-- The transaction's placement hashes: the references, and the
`hasSecondaryConnections` flags of the placement entries and of the co-located entries. -/
structure PlacementConnectionState where
  references : ReferenceKey → ConnectionReference
  placementHasSecondary : Nat → Bool
  colocatedHasSecondary : ColocatedPlacementsHashKey → Bool

/-- The hashes at the start of a transaction: every entry as it is created. -/
def PlacementConnectionState.empty : PlacementConnectionState where
  references := fun _ => ⟨"", none, false, false⟩
  placementHasSecondary := fun _ => false
  colocatedHasSecondary := fun _ => false

/-- `CanUseExistingConnection`. -/
def canUseExistingConnection (flags : Nat) (claimedExclusively : MultiConnection → Bool)
    (userName : String) (connectionReference : ConnectionReference) : Bool :=
  match connectionReference.connection with
  | none => false
  | some connection =>
      if claimedExclusively connection then false
      else if flags &&& forceNewConnection ≠ 0 then false
      else if connectionReference.userName ≠ userName then false
      else true

/-- One access of the pass of `FindPlacementListConnection`, on whether a modifying
connection was found and the connection chosen so far. -/
def findPlacementListConnectionStep (state : PlacementConnectionState) (flags : Nat)
    (claimedExclusively : MultiConnection → Bool) (userName : String)
    (found : Bool × Option MultiConnection) (placementAccess : ShardPlacementAccess) :
    Except String (Bool × Option MultiConnection) :=
  let placement := placementAccess.placement
  let accessType := placementAccess.accessType
  let placementConnection := state.references placement.referenceKey
  let colocatedHasSecondary := match placement.colocatedKey? with
    | some key => state.colocatedHasSecondary key
    | none => false
  -- a dummy placement of a SELECT that pruned to no shard
  if placement.shardId = invalidShardId then .ok found
  else if placementConnection.connection = none then .ok found
  else if accessType = .ddl ∧ state.placementHasSecondary placement.placementId = true then
    .error ("cannot perform DDL on placement " ++ toString placement.placementId ++
      ", which has been read over multiple connections")
  else if accessType = .ddl ∧ colocatedHasSecondary = true then
    .error ("cannot perform DDL on placement " ++ toString placement.placementId ++
      " since a co-located placement has been read over multiple connections")
  else if found.1 then
    if (placementConnection.hadDDL || placementConnection.hadDML) ∧
        placementConnection.connection ≠ found.2 then
      .error "cannot perform query with placements that were modified over multiple connections"
    else .ok found
  else if accessType = .select ∧ state.placementHasSecondary placement.placementId = true ∧
      placementConnection.hadDDL = false ∧ placementConnection.hadDML = false then
    .ok found
  else if canUseExistingConnection flags claimedExclusively userName placementConnection then
    .ok (placementConnection.hadDDL || placementConnection.hadDML, placementConnection.connection)
  else if placementConnection.hadDDL || placementConnection.hadDML then
    if placementConnection.userName ≠ userName then
      .error ("cannot perform query on placements that were modified in this transaction " ++
        "by a different user")
    else
      .error ("cannot perform query, because modifications were made over a connection that " ++
        "cannot be used at this time. This is most likely a Citus bug so please report it")
  else .ok found

/-- `FindPlacementListConnection`: the connection the accesses must use, if any. -/
def findPlacementListConnection (state : PlacementConnectionState) (flags : Nat)
    (claimedExclusively : MultiConnection → Bool) (userName : String)
    (placementAccessList : List ShardPlacementAccess) :
    Except String (Option MultiConnection) := do
  let found ← placementAccessList.foldlM
    (findPlacementListConnectionStep state flags claimedExclusively userName) (false, none)
  pure found.2

/-- An access recorded on a reference: DDL and DML set their flags. -/
def ConnectionReference.recordAccess (reference : ConnectionReference)
    (accessType : ShardPlacementAccessType) : ConnectionReference :=
  { reference with
    hadDDL := reference.hadDDL || accessType == .ddl
    hadDML := reference.hadDML || accessType == .dml }

namespace PlacementConnectionState

/-- A reference written back. -/
def setReference (state : PlacementConnectionState) (key : ReferenceKey)
    (reference : ConnectionReference) : PlacementConnectionState :=
  { state with references := Function.update state.references key reference }

/-- `hasSecondaryConnections` set on the placement's entry and on its co-located entry. -/
def markSecondary (state : PlacementConnectionState) (placement : ShardPlacement) :
    PlacementConnectionState :=
  { state with
    placementHasSecondary := Function.update state.placementHasSecondary placement.placementId true
    colocatedHasSecondary := match placement.colocatedKey? with
      | some key => Function.update state.colocatedHasSecondary key true
      | none => state.colocatedHasSecondary }

end PlacementConnectionState

/-- One access of `AssignPlacementListToConnection`. -/
def assignPlacementAccess (connection : MultiConnection) (state : PlacementConnectionState)
    (placementAccess : ShardPlacementAccess) : PlacementConnectionState :=
  let placement := placementAccess.placement
  let accessType := placementAccess.accessType
  let key := placement.referenceKey
  let placementConnection := state.references key
  if placement.shardId = invalidShardId then state
  else if placementConnection.connection = some connection then
    state.setReference key (placementConnection.recordAccess accessType)
  else if placementConnection.connection = none then
    state.setReference key
      ({ placementConnection with
          connection := some connection, hadDDL := false, hadDML := false
          userName := connection.user }.recordAccess accessType)
  else
    -- read before over another connection: a write moves the reference to this one
    let placementConnection := if accessType ≠ .select then
      { placementConnection with connection := some connection, userName := connection.user }
      else placementConnection
    (state.markSecondary placement).setReference key (placementConnection.recordAccess accessType)

/-- `AssignPlacementListToConnection`. -/
def assignPlacementListToConnection (placementAccessList : List ShardPlacementAccess)
    (connection : MultiConnection) (state : PlacementConnectionState) :
    PlacementConnectionState :=
  placementAccessList.foldl (assignPlacementAccess connection) state

/-- A reference pinned to a connection: the connection has it, and modified it. -/
def Pinned (state : PlacementConnectionState) (key : ReferenceKey)
    (connection : MultiConnection) : Prop :=
  (state.references key).connection = some connection ∧
    ((state.references key).hadDDL || (state.references key).hadDML) = true

section Find

variable {state : PlacementConnectionState} {flags : Nat}
  {claimedExclusively : MultiConnection → Bool} {userName : String}
  {found found' : Bool × Option MultiConnection} {placementAccess : ShardPlacementAccess}
  {connection : MultiConnection}

/-- Once a modifying connection is found, the rest of the pass keeps it or errors. -/
theorem findPlacementListConnectionStep_of_found (hfound : found.1 = true)
    (h : findPlacementListConnectionStep state flags claimedExclusively userName found
      placementAccess = .ok found') : found' = found := by
  unfold findPlacementListConnectionStep at h
  simp only [hfound, if_true] at h
  split_ifs at h <;> cases h <;> rfl

/-- A placement pinned to a connection makes the pass find that connection, or error. -/
theorem findPlacementListConnectionStep_of_pinned
    (hvalid : placementAccess.placement.shardId ≠ invalidShardId)
    (hpinned : Pinned state placementAccess.placement.referenceKey connection)
    (h : findPlacementListConnectionStep state flags claimedExclusively userName found
      placementAccess = .ok found') : found' = (true, some connection) := by
  obtain ⟨hconnection, hwritten⟩ := hpinned
  unfold findPlacementListConnectionStep at h
  simp only [hconnection, hwritten, reduceCtorEq, if_false, if_neg hvalid] at h
  split_ifs at h with hddl hcolocated hfound hconflict hskip hcan <;> try cases h
  · -- the pass had already found this placement's connection
    obtain ⟨first, chosen⟩ := found
    simp only [ne_eq, true_and, not_not] at hfound hconflict
    rw [hfound, ← hconflict]
  · -- only a placement never modified is skipped
    simp [hskip.2.2.1, hskip.2.2.2] at hwritten
  · rfl

/-- From a found modifying connection on, the pass keeps it. -/
theorem foldlM_findPlacementListConnectionStep_of_found :
    ∀ {placementAccessList : List ShardPlacementAccess} {found found' : Bool × Option MultiConnection},
      found.1 = true →
      placementAccessList.foldlM
        (findPlacementListConnectionStep state flags claimedExclusively userName) found =
          .ok found' → found' = found := by
  intro placementAccessList
  induction placementAccessList with
  | nil =>
      intro found found' _ h
      cases h
      rfl
  | cons placementAccess rest ih =>
      intro found found' hfound h
      obtain ⟨mid, hmid, hrest⟩ := EventRun.foldlM_except_cons_eq_ok h
      rw [findPlacementListConnectionStep_of_found hfound hmid] at hrest
      exact ih hfound hrest

/-- A pass over a list holding a pinned placement finds its connection, or errors. -/
theorem foldlM_findPlacementListConnectionStep_of_pinned :
    ∀ {placementAccessList : List ShardPlacementAccess} {found found' : Bool × Option MultiConnection},
      (∃ placementAccess ∈ placementAccessList,
        placementAccess.placement.shardId ≠ invalidShardId ∧
          Pinned state placementAccess.placement.referenceKey connection) →
      placementAccessList.foldlM
        (findPlacementListConnectionStep state flags claimedExclusively userName) found =
          .ok found' → found' = (true, some connection) := by
  intro placementAccessList
  induction placementAccessList with
  | nil =>
      intro found found' hpinned _
      obtain ⟨_, hmem, _⟩ := hpinned
      exact absurd hmem List.not_mem_nil
  | cons placementAccess rest ih =>
      intro found found' hpinned h
      obtain ⟨mid, hmid, hrest⟩ := EventRun.foldlM_except_cons_eq_ok h
      obtain ⟨pinnedAccess, hmem, hvalid, hpinnedAccess⟩ := hpinned
      rcases List.mem_cons.mp hmem with rfl | hmem
      · rw [findPlacementListConnectionStep_of_pinned hvalid hpinnedAccess hmid] at hrest
        exact foldlM_findPlacementListConnectionStep_of_found rfl hrest
      · exact ih ⟨pinnedAccess, hmem, hvalid, hpinnedAccess⟩ hrest

/-- `FindPlacementListConnection` on a list holding a pinned placement returns its
connection, or errors. -/
theorem findPlacementListConnection_of_pinned {placementAccessList : List ShardPlacementAccess}
    {chosen : Option MultiConnection}
    (hpinned : ∃ placementAccess ∈ placementAccessList,
      placementAccess.placement.shardId ≠ invalidShardId ∧
        Pinned state placementAccess.placement.referenceKey connection)
    (h : findPlacementListConnection state flags claimedExclusively userName
      placementAccessList = .ok chosen) : chosen = some connection := by
  unfold findPlacementListConnection at h
  cases hpass : placementAccessList.foldlM
      (findPlacementListConnectionStep state flags claimedExclusively userName) (false, none) with
  | error e =>
      rw [hpass] at h
      cases h
  | ok found =>
      rw [hpass] at h
      cases h
      rw [foldlM_findPlacementListConnectionStep_of_pinned hpinned hpass]

end Find

section Assign

variable {state : PlacementConnectionState} {connection connection' : MultiConnection}
  {key : ReferenceKey} {placementAccess : ShardPlacementAccess}

theorem references_setReference (key' : ReferenceKey) (reference : ConnectionReference) :
    (state.setReference key reference).references key' =
      if key' = key then reference else state.references key' :=
  Function.update_apply state.references key reference key'

@[simp] theorem references_markSecondary (placement : ShardPlacement) :
    (state.markSecondary placement).references = state.references := rfl

/-- An access of another reference, or of a dummy placement, leaves a reference as it is. -/
theorem references_assignPlacementAccess_of_ne
    (h : placementAccess.placement.shardId = invalidShardId ∨
      placementAccess.placement.referenceKey ≠ key) :
    (assignPlacementAccess connection state placementAccess).references key =
      state.references key := by
  unfold assignPlacementAccess
  dsimp only
  split_ifs with hinvalid
  · rfl
  all_goals rw [references_setReference, if_neg (Ne.symm (h.resolve_left hinvalid))]
  -- a secondary connection marks flags, never references
  all_goals rfl

/-- A DDL or DML access records a modification. -/
theorem recordAccess_modified (reference : ConnectionReference)
    (hwrite : placementAccess.accessType ≠ .select) :
    ((reference.recordAccess placementAccess.accessType).hadDDL ||
      (reference.recordAccess placementAccess.accessType).hadDML) = true := by
  unfold ConnectionReference.recordAccess
  cases haccess : placementAccess.accessType with
  | select => exact absurd haccess hwrite
  | dml => simp
  | ddl => simp

/-- An access over the connection a reference is pinned to keeps it pinned. -/
theorem pinned_assignPlacementAccess (hpinned : Pinned state key connection')
    (hconnection : placementAccess.placement.shardId ≠ invalidShardId →
      placementAccess.placement.referenceKey = key → connection = connection') :
    Pinned (assignPlacementAccess connection state placementAccess) key connection' := by
  by_cases hours : placementAccess.placement.shardId ≠ invalidShardId ∧
      placementAccess.placement.referenceKey = key
  · obtain ⟨hvalid, hkey⟩ := hours
    obtain rfl := hconnection hvalid hkey
    obtain ⟨hpinnedConnection, hwritten⟩ := hpinned
    unfold assignPlacementAccess
    rw [if_neg hvalid, hkey, if_pos hpinnedConnection]
    unfold Pinned
    rw [references_setReference, if_pos rfl]
    refine ⟨hpinnedConnection, ?_⟩
    unfold ConnectionReference.recordAccess
    simp only [Bool.or_eq_true] at hwritten ⊢
    tauto
  · rw [Pinned, references_assignPlacementAccess_of_ne (by tauto)]
    exact hpinned

/-- A DDL or DML access pins its reference to the connection it is assigned to. -/
theorem pinned_assignPlacementAccess_of_write
    (hvalid : placementAccess.placement.shardId ≠ invalidShardId)
    (hwrite : placementAccess.accessType ≠ .select) :
    Pinned (assignPlacementAccess connection state placementAccess)
      placementAccess.placement.referenceKey connection := by
  unfold assignPlacementAccess Pinned
  rw [if_neg hvalid]
  split_ifs with hsame hnone
  · rw [references_setReference, if_pos rfl]
    exact ⟨hsame, recordAccess_modified _ hwrite⟩
  · rw [references_setReference, if_pos rfl]
    exact ⟨rfl, recordAccess_modified _ hwrite⟩
  · rw [references_setReference, if_pos rfl]
    exact ⟨rfl, recordAccess_modified _ hwrite⟩

/-- A list assigned to the connection a reference is pinned to keeps it pinned, and so
does a list that does not access it. -/
theorem pinned_assignPlacementListToConnection {placementAccessList : List ShardPlacementAccess}
    (hpinned : Pinned state key connection')
    (hconnection : ∀ placementAccess ∈ placementAccessList,
      placementAccess.placement.shardId ≠ invalidShardId →
        placementAccess.placement.referenceKey = key → connection = connection') :
    Pinned (assignPlacementListToConnection placementAccessList connection state) key
      connection' :=
  EventRun.foldl_invariant (fun state => Pinned state key connection') hpinned
    fun _ placementAccess hmem hstate =>
      pinned_assignPlacementAccess hstate (hconnection placementAccess hmem)

/-- After a list with a DDL or DML access, the access's reference is pinned to the
connection the list was assigned to. -/
theorem pinned_assignPlacementListToConnection_of_write :
    ∀ {placementAccessList : List ShardPlacementAccess} {state : PlacementConnectionState},
      placementAccess ∈ placementAccessList →
      placementAccess.placement.shardId ≠ invalidShardId →
      placementAccess.accessType ≠ .select →
      Pinned (assignPlacementListToConnection placementAccessList connection state)
        placementAccess.placement.referenceKey connection := by
  intro placementAccessList
  induction placementAccessList with
  | nil =>
      intro state hmem
      exact absurd hmem List.not_mem_nil
  | cons first rest ih =>
      intro state hmem hvalid hwrite
      unfold assignPlacementListToConnection
      rw [List.foldl_cons]
      rcases List.mem_cons.mp hmem with rfl | hmem
      · -- pinned by this access, and kept by the rest, assigned to the same connection
        exact pinned_assignPlacementListToConnection
          (pinned_assignPlacementAccess_of_write hvalid hwrite) fun _ _ _ _ => rfl
      · exact ih hmem hvalid hwrite

end Assign

section Runs

/-- A call of `StartPlacementListConnection` within the transaction: its flags, the
connections claimed exclusively at the time, the user, the accesses, and the connection
the accesses are assigned to. -/
structure PlacementListRequest where
  flags : Nat
  claimedExclusively : MultiConnection → Bool
  userName : String
  placementAccessList : List ShardPlacementAccess
  connection : MultiConnection

/-- `AssignPlacementListToConnection` of the request's accesses to its connection. -/
def PlacementListRequest.assign (request : PlacementListRequest)
    (state : PlacementConnectionState) : PlacementConnectionState :=
  assignPlacementListToConnection request.placementAccessList request.connection state

/-- Runs of requests where each assignment follows a `FindPlacementListConnection` that
returned the request's connection, or none, without an error. -/
inductive FollowsProtocol : PlacementConnectionState → List PlacementListRequest → Prop
  | nil (state : PlacementConnectionState) : FollowsProtocol state []
  | cons {state : PlacementConnectionState} {request : PlacementListRequest}
      {rest : List PlacementListRequest} (chosen : Option MultiConnection) :
      findPlacementListConnection state request.flags request.claimedExclusively
        request.userName request.placementAccessList = .ok chosen →
      (chosen = some request.connection ∨ chosen = none) →
      FollowsProtocol (request.assign state) rest → FollowsProtocol state (request :: rest)

/-- The state after a run of requests. -/
def placementRun (state : PlacementConnectionState) (requests : List PlacementListRequest) :
    PlacementConnectionState :=
  requests.foldl (fun state request => request.assign state) state

/-- A pinned reference stays pinned over a run, and every request accessing it is assigned
to its connection: the induction is on the run, the pinning its invariant. -/
theorem FollowsProtocol.pinned {state : PlacementConnectionState}
    {requests : List PlacementListRequest} {key : ReferenceKey} {connection : MultiConnection}
    (hrun : FollowsProtocol state requests) (hpinned : Pinned state key connection) :
    ∀ request ∈ requests, ∀ placementAccess ∈ request.placementAccessList,
      placementAccess.placement.shardId ≠ invalidShardId →
        placementAccess.placement.referenceKey = key → request.connection = connection := by
  induction hrun with
  | nil => exact fun _ hmem => absurd hmem List.not_mem_nil
  | @cons state request rest chosen hfind hchosen _ ih =>
      -- an access of the pinned reference makes the search return its connection
      have hfirst : ∀ placementAccess ∈ request.placementAccessList,
          placementAccess.placement.shardId ≠ invalidShardId →
            placementAccess.placement.referenceKey = key → request.connection = connection := by
        intro placementAccess hmem hvalid hkey
        have hfound := findPlacementListConnection_of_pinned
          ⟨placementAccess, hmem, hvalid, hkey ▸ hpinned⟩ hfind
        rcases hchosen with hchosen | hchosen
        · rw [hchosen] at hfound
          exact Option.some.inj hfound
        · rw [hchosen] at hfound
          cases hfound
      intro later hlater
      rcases List.mem_cons.mp hlater with rfl | hlater
      · exact hfirst
      · exact ih (pinned_assignPlacementListToConnection hpinned hfirst) later hlater

/-- Once a placement had DML or DDL over a connection, every later access to it, or to a
placement sharing its connection reference, is assigned to that connection. -/
theorem placementConnection_pinned_after_write {state : PlacementConnectionState}
    {request : PlacementListRequest} {rest : List PlacementListRequest}
    {placementAccess : ShardPlacementAccess} (hrun : FollowsProtocol state (request :: rest))
    (hmem : placementAccess ∈ request.placementAccessList)
    (hvalid : placementAccess.placement.shardId ≠ invalidShardId)
    (hwrite : placementAccess.accessType ≠ .select) :
    ∀ later ∈ rest, ∀ access ∈ later.placementAccessList,
      access.placement.shardId ≠ invalidShardId →
        access.placement.referenceKey = placementAccess.placement.referenceKey →
          later.connection = request.connection := by
  cases hrun with
  | cons chosen _ _ hrest =>
      exact hrest.pinned (pinned_assignPlacementListToConnection_of_write hmem hvalid hwrite)

end Runs

section DdlAfterRead

/-- A SELECT of a hash placement, placement 2 on node 1, over connection 2. -/
def readHashPlacement : PlacementListRequest :=
  ⟨0, fun _ => false, "postgres", [⟨⟨2, 2, .hash, 1, 20, 0⟩, .select⟩], ⟨2, "postgres"⟩⟩

/-- A DML on a reference table placement on the same node, placement 1, over connection 1. -/
def writeReferencePlacement : PlacementListRequest :=
  ⟨0, fun _ => false, "postgres", [⟨⟨1, 1, .none, 1, 10, 0⟩, .dml⟩], ⟨1, "postgres"⟩⟩

/-- A SELECT of the reference placement with DDL on the hash placement, as one list. -/
def ddlAfterRead : PlacementListRequest :=
  ⟨0, fun _ => false, "postgres",
    [⟨⟨1, 1, .none, 1, 10, 0⟩, .select⟩, ⟨⟨2, 2, .hash, 1, 20, 0⟩, .ddl⟩], ⟨1, "postgres"⟩⟩

/-- The three requests follow the protocol: the first two find no connection, the last
finds connection 1, the one that modified the reference placement. -/
theorem followsProtocol_ddlAfterRead :
    FollowsProtocol .empty [readHashPlacement, writeReferencePlacement, ddlAfterRead] :=
  .cons none rfl (Or.inr rfl) <| .cons none rfl (Or.inr rfl) <|
    .cons (some ⟨1, "postgres"⟩) rfl (Or.inl rfl) (.nil _)

theorem assignPlacementListToConnection_ddl_over_second_connection :
    FollowsProtocol .empty [readHashPlacement, writeReferencePlacement, ddlAfterRead] ∧
      (placementRun .empty [readHashPlacement, writeReferencePlacement]).references
          (.colocated ⟨1, 20, 0⟩) = ⟨"postgres", some ⟨2, "postgres"⟩, false, false⟩ ∧
      (placementRun .empty [readHashPlacement, writeReferencePlacement]).placementHasSecondary
          2 = false ∧
      (placementRun .empty [readHashPlacement, writeReferencePlacement, ddlAfterRead]).references
          (.colocated ⟨1, 20, 0⟩) = ⟨"postgres", some ⟨1, "postgres"⟩, false, true⟩ :=
  ⟨followsProtocol_ddlAfterRead, rfl, rfl, rfl⟩

theorem placementConnection_pinned_after_write_reference_placement :
    FollowsProtocol (readHashPlacement.assign .empty) [writeReferencePlacement, ddlAfterRead] ∧
      ddlAfterRead.connection = writeReferencePlacement.connection := by
  have hrun : FollowsProtocol (readHashPlacement.assign .empty)
      [writeReferencePlacement, ddlAfterRead] := by
    cases followsProtocol_ddlAfterRead with
    | cons _ _ _ hrest => exact hrest
  exact ⟨hrun, @placementConnection_pinned_after_write _ _ _ ⟨⟨1, 1, .none, 1, 10, 0⟩, .dml⟩ hrun
    (by decide) (by decide) (by decide) ddlAfterRead (List.mem_singleton_self _)
    ⟨⟨1, 1, .none, 1, 10, 0⟩, .select⟩ (by decide) (by decide) rfl⟩

end DdlAfterRead

end Citus.PlacementConnection
