import Citus.Rebalancer.Placement
import Citus.Lib.Run
import Mathlib

/-!
# Re-replicating shards

`ReplicationPlacementUpdates` (`shard_rebalancer.c`) plans the copies of
`replicate_table_shards`. It counts the shards of every worker, then visits the
active placements one by one: a placement whose shard has fewer than
`shardReplicationFactor` placements on the workers gets one copy, from the first
worker holding the shard to the worker with the fewest shards among those that may
hold placements and do not hold it.

The copies are executable in order, each from a worker holding the shard to an
eligible worker that does not (`replicationPlacementUpdates_spec`). The number of
placements a shard ends with on the workers is exact: a shard is topped up once per
visit of one of its placements, so with `c` placements on the workers and `v`
entries in the list it ends with `c` placements if it had enough, and with
`min r (c + v)` otherwise. A shard with one placement and a factor of 3 ends with 2
(`replicationPlacementUpdates_one_placement`).

## Implementation notes

* Worker nodes are node ids, as in the rest of the rebalancer's model, and
  `NodeCanHaveDistTablePlacements` is a predicate on them.
* `shardCountArray` is a list indexed like the worker list; the target loop's
  running minimum starts at `UINT_MAX`, and counts are not bounded.
* The events are `PLACEMENT_UPDATE_COPY` events; a copy adds its target placement
  and keeps the source's.
-/

namespace Citus.Rebalancer

/-- `UINT_MAX`. -/
def uintMax : Nat := 4294967295

/-- The state of the main loop of `ReplicationPlacementUpdates`. -/
structure ReplicationState where
  placementUpdateList : List PlacementUpdateEvent
  placementsHash : List ShardPlacement
  shardCountArray : List Nat

/-- `ShardActivePlacementCount`: the listed workers that hold the shard. -/
def shardActivePlacementCount (activePlacementsHash : List ShardPlacement) (shardId : Nat)
    (activeWorkerNodeList : List Nat) : Nat :=
  activeWorkerNodeList.countP fun workerNode =>
    placementsHashFind activePlacementsHash shardId workerNode

/-- The first loop: each placement counts for the first worker it lies on. -/
def initialShardCountArray (workerNodeList : List Nat)
    (activeShardPlacementList : List ShardPlacement) : List Nat :=
  activeShardPlacementList.foldl
    (fun shardCountArray placement =>
      match workerNodeList.findIdx? (· == placement.nodeId) with
      | some workerNodeIndex => shardCountArray.modify workerNodeIndex (· + 1)
      | none => shardCountArray)
    (List.replicate workerNodeList.length 0)

/-- The target loop: the first worker with the fewest shards among those that may
hold placements and do not hold the shard, with its index. -/
def findReplicationTarget (nodeCanHaveDistTablePlacements : Nat → Bool)
    (placementsHash : List ShardPlacement) (shardId : Nat) (workerNodeList : List Nat)
    (shardCountArray : List Nat) : Option (Nat × Nat) :=
  (workerNodeList.zipIdx.foldl
    (fun (target : Option (Nat × Nat) × Nat) (worker : Nat × Nat) =>
      if !nodeCanHaveDistTablePlacements worker.1 then target
      else if placementsHashFind placementsHash shardId worker.1 then target
      else if shardCountArray.getD worker.2 0 < target.2 then
        (some worker, shardCountArray.getD worker.2 0)
      else target)
    (none, uintMax)).1

/-- One round of the main loop, on one active placement. -/
def replicatePlacement (nodeCanHaveDistTablePlacements : Nat → Bool) (workerNodeList : List Nat)
    (shardReplicationFactor : Int) (state : ReplicationState) (placement : ShardPlacement) :
    Except String ReplicationState :=
  let shardId := placement.shardId
  if (shardActivePlacementCount state.placementsHash shardId workerNodeList : Int) ≥
      shardReplicationFactor then
    .ok state
  else
    match workerNodeList.find? (placementsHashFind state.placementsHash shardId) with
    | none => .error s!"could not find a source for shard {shardId}"
    | some sourceNode =>
        match findReplicationTarget nodeCanHaveDistTablePlacements state.placementsHash shardId
            workerNodeList state.shardCountArray with
        | none => .error s!"could not find a target for shard {shardId}"
        | some (targetNode, targetNodeIndex) =>
            .ok { placementUpdateList :=
                    state.placementUpdateList ++ [⟨shardId, sourceNode, targetNode⟩]
                  placementsHash := placementsHashEnter state.placementsHash shardId targetNode
                  shardCountArray := state.shardCountArray.modify targetNodeIndex (· + 1) }

/-- `ReplicationPlacementUpdates`. -/
def replicationPlacementUpdates (nodeCanHaveDistTablePlacements : Nat → Bool)
    (workerNodeList : List Nat) (activeShardPlacementList : List ShardPlacement)
    (shardReplicationFactor : Int) : Except String (List PlacementUpdateEvent) := do
  let state ← activeShardPlacementList.foldlM
    (replicatePlacement nodeCanHaveDistTablePlacements workerNodeList shardReplicationFactor)
    ⟨[], shardPlacementsListToHash activeShardPlacementList,
      initialShardCountArray workerNodeList activeShardPlacementList⟩
  pure state.placementUpdateList

/-- Execute one copy when its source holds the shard and its target does not. -/
def applyPlacementCopy (placements : List ShardPlacement) (event : PlacementUpdateEvent) :
    Option (List ShardPlacement) :=
  if event.sourcePlacement ∈ placements ∧ event.targetPlacement ∉ placements then
    some (placements ++ [event.targetPlacement])
  else none

/-- Execute copies in order; `none` when one of them is not executable. -/
def applyPlacementCopies (placements : List ShardPlacement) (events : List PlacementUpdateEvent) :
    Option (List ShardPlacement) :=
  events.foldlM applyPlacementCopy placements

/-! ## The placements hash and the counts -/

section Counts

variable {placementsHash : List ShardPlacement} {shardId targetNode : Nat}

theorem placementsHashFind_append (shardId' node : Nat) :
    placementsHashFind (placementsHash ++ [⟨shardId, targetNode⟩]) shardId' node =
      (placementsHashFind placementsHash shardId' node || (shardId' == shardId && node == targetNode)) := by
  by_cases hshard : shardId' = shardId <;> by_cases hnode : node = targetNode <;>
    simp [placementsHashFind, hshard, hnode]

theorem placementsHashEnter_of_find_eq_false
    (hfree : placementsHashFind placementsHash shardId targetNode = false) :
    placementsHashEnter placementsHash shardId targetNode =
      placementsHash ++ [⟨shardId, targetNode⟩] := by
  unfold placementsHashEnter
  rw [if_neg]
  simpa [placementsHashFind] using hfree

/-- Entering a placement leaves the counts over workers other than its node. -/
theorem shardActivePlacementCount_append_of_not_mem {workerNodeList : List Nat}
    (htarget : targetNode ∉ workerNodeList) (shardId' : Nat) :
    shardActivePlacementCount (placementsHash ++ [⟨shardId, targetNode⟩]) shardId' workerNodeList =
      shardActivePlacementCount placementsHash shardId' workerNodeList := by
  apply List.countP_congr
  intro node hnode
  have hne : node ≠ targetNode := fun heq => htarget (heq ▸ hnode)
  simp [placementsHashFind_append, hne]

/-- Entering a placement of a shard on a listed worker that does not hold it adds
one to the shard's count and nothing to the others'. -/
theorem shardActivePlacementCount_append : ∀ {workerNodeList : List Nat},
    workerNodeList.Nodup → targetNode ∈ workerNodeList →
    placementsHashFind placementsHash shardId targetNode = false → ∀ shardId',
      shardActivePlacementCount (placementsHash ++ [⟨shardId, targetNode⟩]) shardId'
          workerNodeList =
        shardActivePlacementCount placementsHash shardId' workerNodeList +
          if shardId' = shardId then 1 else 0
  | [], _, htarget, _, _ => absurd htarget List.not_mem_nil
  | node :: rest, hnodup, htarget, hfree, shardId' => by
      rw [List.nodup_cons] at hnodup
      unfold shardActivePlacementCount
      rw [List.countP_cons, List.countP_cons]
      by_cases hnode : node = targetNode
      · -- the target's own entry: the rest of the list does not hold it
        subst hnode
        have hrest : shardActivePlacementCount (placementsHash ++ [⟨shardId, node⟩]) shardId' rest =
            shardActivePlacementCount placementsHash shardId' rest :=
          shardActivePlacementCount_append_of_not_mem hnodup.1 shardId'
        unfold shardActivePlacementCount at hrest
        rw [hrest, placementsHashFind_append]
        by_cases hshard : shardId' = shardId
        · subst hshard
          simp [hfree]
        · simp [hshard]
      · have hrest := shardActivePlacementCount_append hnodup.2
          ((List.mem_cons.mp htarget).resolve_left (Ne.symm hnode)) hfree shardId'
        unfold shardActivePlacementCount at hrest
        have hbeq : (node == targetNode) = false := by simpa using hnode
        rw [hrest, placementsHashFind_append, hbeq, Bool.and_false, Bool.or_false]
        omega

end Counts

/-! ## One round and the whole loop -/

section Loop

variable {nodeCanHaveDistTablePlacements : Nat → Bool} {workerNodeList : List Nat}
  {shardReplicationFactor : Int}

/-- The target loop only keeps a worker that may hold placements and does not hold
the shard. -/
theorem findReplicationTarget_eq_some {placementsHash : List ShardPlacement} {shardId : Nat}
    {shardCountArray : List Nat} {targetNode targetNodeIndex : Nat}
    (h : findReplicationTarget nodeCanHaveDistTablePlacements placementsHash shardId
      workerNodeList shardCountArray = some (targetNode, targetNodeIndex)) :
    targetNode ∈ workerNodeList ∧ nodeCanHaveDistTablePlacements targetNode = true ∧
      placementsHashFind placementsHash shardId targetNode = false := by
  unfold findReplicationTarget at h
  revert h
  apply EventRun.foldl_invariant fun target : Option (Nat × Nat) × Nat =>
    target.1 = some (targetNode, targetNodeIndex) →
      targetNode ∈ workerNodeList ∧ nodeCanHaveDistTablePlacements targetNode = true ∧
        placementsHashFind placementsHash shardId targetNode = false
  · intro hnone
    cases hnone
  · intro target worker hworker hkept
    split_ifs with hcan hfind
    · exact hkept
    · exact hkept
    · intro hsome
      obtain rfl : worker = (targetNode, targetNodeIndex) := Option.some.inj hsome
      refine ⟨List.fst_mem_of_mem_zipIdx hworker, ?_, ?_⟩
      · simpa using hcan
      · simpa using hfind
    · exact hkept

/-- What one round can do: leave a shard with enough placements, or copy it from a
listed worker holding it to an eligible listed worker that does not. -/
theorem replicatePlacement_eq_ok {state state' : ReplicationState} {placement : ShardPlacement}
    (h : replicatePlacement nodeCanHaveDistTablePlacements workerNodeList shardReplicationFactor
      state placement = .ok state') :
    (shardReplicationFactor ≤
        shardActivePlacementCount state.placementsHash placement.shardId workerNodeList ∧
      state' = state) ∨
    ((shardActivePlacementCount state.placementsHash placement.shardId workerNodeList : Int) <
        shardReplicationFactor ∧
      ∃ sourceNode targetNode targetNodeIndex, sourceNode ∈ workerNodeList ∧
        placementsHashFind state.placementsHash placement.shardId sourceNode = true ∧
        targetNode ∈ workerNodeList ∧ nodeCanHaveDistTablePlacements targetNode = true ∧
        placementsHashFind state.placementsHash placement.shardId targetNode = false ∧
        state' = ⟨state.placementUpdateList ++ [⟨placement.shardId, sourceNode, targetNode⟩],
          state.placementsHash ++ [⟨placement.shardId, targetNode⟩],
          state.shardCountArray.modify targetNodeIndex (· + 1)⟩) := by
  unfold replicatePlacement at h
  dsimp only at h
  split_ifs at h with hcount
  · cases h
    exact .inl ⟨hcount, rfl⟩
  right
  refine ⟨lt_of_not_ge hcount, ?_⟩
  split at h
  · cases h
  rename_i sourceNode hsource
  split at h
  · cases h
  rename_i targetNode targetNodeIndex htarget
  cases h
  obtain ⟨hmem, hcan, hfree⟩ := findReplicationTarget_eq_some htarget
  refine ⟨sourceNode, targetNode, targetNodeIndex, List.mem_of_find?_eq_some hsource,
    List.find?_some hsource, hmem, hcan, hfree, ?_⟩
  rw [placementsHashEnter_of_find_eq_false hfree]

theorem placementCount_cons (placement : ShardPlacement) (rest : List ShardPlacement)
    (shardId : Nat) :
    placementCount (placement :: rest) shardId =
      placementCount rest shardId + if placement.shardId = shardId then 1 else 0 := by
  unfold placementCount
  rw [List.countP_cons]
  simp

/-- The run lemma of the main loop. The copies are executable in order on the hash the
loop started from, go between listed workers to eligible ones, and leave each shard
topped up once per visit of one of its placements, up to the factor. -/
theorem replicatePlacements_run (hworkers : workerNodeList.Nodup) :
    ∀ (placements : List ShardPlacement) (state state' : ReplicationState),
      placements.foldlM (replicatePlacement nodeCanHaveDistTablePlacements workerNodeList
          shardReplicationFactor) state = .ok state' →
      ∃ events, state'.placementUpdateList = state.placementUpdateList ++ events ∧
        applyPlacementCopies state.placementsHash events = some state'.placementsHash ∧
        (∀ event ∈ events, event.sourceNode ∈ workerNodeList ∧
          event.targetNode ∈ workerNodeList ∧
          nodeCanHaveDistTablePlacements event.targetNode = true) ∧
        ∀ shardId, (shardActivePlacementCount state'.placementsHash shardId workerNodeList : Int) =
          max (shardActivePlacementCount state.placementsHash shardId workerNodeList : Int)
            (min shardReplicationFactor
              (shardActivePlacementCount state.placementsHash shardId workerNodeList +
                placementCount placements shardId))
  | [], state, state', h => by
      cases h
      refine ⟨[], by rw [List.append_nil], rfl, fun _ hevent => absurd hevent List.not_mem_nil, ?_⟩
      intro shardId
      simp only [placementCount, List.countP_nil, Nat.cast_zero, add_zero]
      omega
  | placement :: rest, state, state', h => by
      obtain ⟨mid, hmid, hrest⟩ := EventRun.foldlM_except_cons_eq_ok h
      obtain ⟨events, hlist, happly, hnodes, hcount⟩ :=
        replicatePlacements_run hworkers rest mid state' hrest
      rcases replicatePlacement_eq_ok hmid with
        ⟨hskip, rfl⟩ | ⟨hbelow, sourceNode, targetNode, targetNodeIndex, hsource, hfind, htarget,
          hcan, hfree, rfl⟩
      · -- the shard had enough placements: the round changes nothing
        refine ⟨events, hlist, happly, hnodes, ?_⟩
        intro shardId
        rw [hcount shardId, placementCount_cons]
        by_cases hshard : placement.shardId = shardId
        · subst hshard
          rw [if_pos rfl]
          omega
        · rw [if_neg hshard, add_zero]
      · -- one copy, which the rest of the run continues
        refine ⟨⟨placement.shardId, sourceNode, targetNode⟩ :: events, ?_, ?_, ?_, ?_⟩
        · rw [hlist, List.append_assoc, List.singleton_append]
        · have hcopy : applyPlacementCopy state.placementsHash
              ⟨placement.shardId, sourceNode, targetNode⟩ =
                some (state.placementsHash ++ [⟨placement.shardId, targetNode⟩]) := by
            unfold applyPlacementCopy
            rw [if_pos]
            · rfl
            · constructor
              · simpa [placementsHashFind, PlacementUpdateEvent.sourcePlacement] using hfind
              · simpa [placementsHashFind, PlacementUpdateEvent.targetPlacement] using hfree
          unfold applyPlacementCopies
          rw [List.foldlM_cons, hcopy]
          exact happly
        · intro event hevent
          rcases List.mem_cons.mp hevent with rfl | hevent
          · exact ⟨hsource, htarget, hcan⟩
          · exact hnodes event hevent
        · intro shardId
          have hstep := shardActivePlacementCount_append hworkers htarget hfree shardId
          rw [hcount shardId, hstep, placementCount_cons]
          by_cases hshard : placement.shardId = shardId
          · subst hshard
            rw [if_pos rfl]
            omega
          · rw [if_neg (Ne.symm hshard), if_neg hshard, add_zero, add_zero]

/-- `ReplicationPlacementUpdates` over distinct workers, when it returns its copies:
they execute in order on the active placements, each from a listed worker holding the
shard to a listed worker that may hold placements and does not hold it; and a shard
with `c` placements on the workers and `v` entries in the list ends with `c` of them
when `c` reaches the factor, and with `min r (c + v)` otherwise. -/
theorem replicationPlacementUpdates_spec (hworkers : workerNodeList.Nodup)
    {activeShardPlacementList : List ShardPlacement}
    {placementUpdateList : List PlacementUpdateEvent}
    (h : replicationPlacementUpdates nodeCanHaveDistTablePlacements workerNodeList
      activeShardPlacementList shardReplicationFactor = .ok placementUpdateList) :
    ∃ placements, applyPlacementCopies (shardPlacementsListToHash activeShardPlacementList)
        placementUpdateList = some placements ∧
      (∀ event ∈ placementUpdateList, event.sourceNode ∈ workerNodeList ∧
        event.targetNode ∈ workerNodeList ∧
        nodeCanHaveDistTablePlacements event.targetNode = true) ∧
      ∀ shardId, (shardActivePlacementCount placements shardId workerNodeList : Int) =
        max (shardActivePlacementCount (shardPlacementsListToHash activeShardPlacementList)
            shardId workerNodeList : Int)
          (min shardReplicationFactor
            (shardActivePlacementCount (shardPlacementsListToHash activeShardPlacementList)
                shardId workerNodeList +
              placementCount activeShardPlacementList shardId)) := by
  unfold replicationPlacementUpdates at h
  cases hrun : activeShardPlacementList.foldlM (replicatePlacement nodeCanHaveDistTablePlacements
      workerNodeList shardReplicationFactor) ⟨[], shardPlacementsListToHash activeShardPlacementList,
        initialShardCountArray workerNodeList activeShardPlacementList⟩ with
  | error e =>
      rw [hrun] at h
      cases h
  | ok state =>
      rw [hrun] at h
      cases h
      obtain ⟨events, hlist, happly, hnodes, hcount⟩ := replicatePlacements_run hworkers _ _ _ hrun
      rw [List.nil_append] at hlist
      rw [hlist]
      exact ⟨state.placementsHash, happly, hnodes, hcount⟩

/-- One placement of shard 1 on the first of three workers and a factor of 3: one
copy, to the second worker. -/
theorem replicationPlacementUpdates_spec_one_placement :
    ∃ placements, applyPlacementCopies (shardPlacementsListToHash [⟨1, 1⟩]) [⟨1, 1, 2⟩] =
        some placements ∧
      (∀ event ∈ [(⟨1, 1, 2⟩ : PlacementUpdateEvent)], event.sourceNode ∈ [1, 2, 3] ∧
        event.targetNode ∈ [1, 2, 3] ∧ (fun _ => true : Nat → Bool) event.targetNode = true) ∧
      ∀ shardId, (shardActivePlacementCount placements shardId [1, 2, 3] : Int) =
        max (shardActivePlacementCount (shardPlacementsListToHash [⟨1, 1⟩]) shardId [1, 2, 3] : Int)
          (min 3 (shardActivePlacementCount (shardPlacementsListToHash [⟨1, 1⟩]) shardId [1, 2, 3] +
            placementCount [⟨1, 1⟩] shardId)) :=
  @replicationPlacementUpdates_spec (fun _ => true) [1, 2, 3] 3 (by decide) [⟨1, 1⟩] [⟨1, 1, 2⟩] rfl

/-- The loop visits placements, not shards: a shard with one placement gets one copy,
and ends with 2 placements on the workers for a factor of 3, without an error. -/
theorem replicationPlacementUpdates_one_placement :
    replicationPlacementUpdates (fun _ => true) [1, 2, 3] [⟨1, 1⟩] 3 = .ok [⟨1, 1, 2⟩] ∧
      applyPlacementCopies [⟨1, 1⟩] [⟨1, 1, 2⟩] = some [⟨1, 1⟩, ⟨1, 2⟩] ∧
      shardActivePlacementCount [⟨1, 1⟩, ⟨1, 2⟩] 1 [1, 2, 3] = 2 :=
  ⟨rfl, by decide, by decide⟩

end Loop

end Citus.Rebalancer
