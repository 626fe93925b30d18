import Mathlib

/-!
# The shard rebalancer's planner

`RebalancePlacementUpdates` (`shard_rebalancer.c`) plans the shard moves of a
rebalance. Every list of placements (one colocation group) gets a
`RebalanceState`: a fill state per worker node, the set of placements as a hash,
and the list of moves planned so far. The planner first drains the placements
that `shardAllowedOnNode` rejects, one state after another, and then runs the
greedy loop `FindAndMoveShardCost` on each state until it finds no improving
move or the move budget `maxShardMoves` is used up. All states share one growing
list of moves.

## Implementation notes

* `float4` and `double` are exact rationals; `INFINITY` is the top of `WithTop ℚ`.
* A worker node is its node id, and a placement lies on a node when their ids
  agree (`IsPlacementOnWorkerNode` compares name and port).
* The placements hash is a list without duplicates. `InitRebalanceState` visits
  it in list order, which is one of the orders a hash table iteration can take.
* The source caches each node's utilization in the fill state and recomputes it
  whenever the total cost changes; here it is computed from the fields. Likewise
  `fillStateListAsc` and `fillStateListDesc` are the fill states sorted by the
  source's comparators, which it re-sorts after every move.
* Notices and warnings are not modelled; the count of ignored moves is.
-/

namespace Citus.Rebalancer

/-! ## Data -/

/-- A shard placement, as a key of the placements hash. -/
structure ShardPlacement where
  shardId : Nat
  nodeId : Nat
  deriving DecidableEq, Repr

/-- `ShardCost`: a shard with the cost the rebalance strategy gives it. -/
structure ShardCost where
  shardId : Nat
  cost : ℚ
  deriving DecidableEq, Repr

/-- `PlacementUpdateEvent` of type `PLACEMENT_UPDATE_MOVE`. -/
structure PlacementUpdateEvent where
  shardId : Nat
  sourceNode : Nat
  targetNode : Nat
  deriving DecidableEq, Repr

/-- `RebalancePlanFunctions`: the rebalance strategy. The cost function returns
the cost of the shard it is asked about. -/
structure RebalancePlanFunctions where
  shardAllowedOnNode : Nat → Nat → Bool
  nodeCapacity : Nat → ℚ
  shardCost : Nat → ℚ

/-- `functions->shardCost(shardId)`. -/
def RebalancePlanFunctions.shardCostOf (functions : RebalancePlanFunctions) (shardId : Nat) :
    ShardCost :=
  ⟨shardId, functions.shardCost shardId⟩

/-- `NodeFillState`: the shards of one node, most expensive first. -/
structure NodeFillState where
  node : Nat
  capacity : ℚ
  totalCost : ℚ
  shardCostListDesc : List ShardCost
  deriving DecidableEq, Repr

/-- `DisallowedPlacement`: a shard on a node that may not hold it. -/
structure DisallowedPlacement where
  shardCost : ShardCost
  node : Nat
  deriving DecidableEq, Repr

/-- `RebalanceState`. The fill states are kept in worker order; the sorted lists
of the source are `fillStateListAsc` and `fillStateListDesc` below. -/
structure RebalanceState where
  functions : RebalancePlanFunctions
  fillStates : List NodeFillState
  placementsHash : List ShardPlacement
  placementUpdateList : List PlacementUpdateEvent
  disallowedPlacementList : List DisallowedPlacement
  totalCost : ℚ
  totalCapacity : ℚ
  ignoredMoves : Nat

/-! ## Utilization and the comparators -/

/-- `CalculateUtilization`: infinite for a node without capacity. -/
def calculateUtilization (totalCost capacity : ℚ) : WithTop ℚ :=
  if capacity ≤ 0 then ⊤ else ((totalCost / capacity : ℚ) : WithTop ℚ)

/-- The `utilization` field of a fill state. -/
def NodeFillState.utilization (fillState : NodeFillState) : WithTop ℚ :=
  calculateUtilization fillState.totalCost fillState.capacity

/-- `SortList` with a three-way comparator. The comparators below order distinct
elements strictly, so every sorting algorithm gives the same list; insertion sort
is the one the kernel evaluates. -/
def sortList {α : Type} (list : List α) (comparator : α → α → Ordering) : List α :=
  list.insertionSort fun a b => comparator a b != .gt

/-- `CompareNodeFillStateAsc`: emptiest first, then the larger capacity, then the
smaller node id. -/
def compareNodeFillStateAsc (a b : NodeFillState) : Ordering :=
  if a.utilization < b.utilization then .lt
  else if a.utilization > b.utilization then .gt
  else if a.capacity > b.capacity then .lt
  else if a.capacity < b.capacity then .gt
  else compare a.node b.node

/-- `CompareNodeFillStateDesc`. -/
def compareNodeFillStateDesc (a b : NodeFillState) : Ordering :=
  (compareNodeFillStateAsc a b).swap

/-- `CompareShardCostAsc`: cheapest first, then the larger shard id. -/
def compareShardCostAsc (a b : ShardCost) : Ordering :=
  if a.cost < b.cost then .lt
  else if a.cost > b.cost then .gt
  else if a.shardId > b.shardId then .lt
  else if a.shardId < b.shardId then .gt
  else .eq

/-- `CompareShardCostDesc`. -/
def compareShardCostDesc (a b : ShardCost) : Ordering :=
  (compareShardCostAsc a b).swap

/-- `CompareDisallowedPlacementDesc`: by the shard cost, most expensive first. -/
def compareDisallowedPlacementDesc (a b : DisallowedPlacement) : Ordering :=
  (compareShardCostAsc a.shardCost b.shardCost).swap

/-- `state->fillStateListAsc`. -/
def RebalanceState.fillStateListAsc (state : RebalanceState) : List NodeFillState :=
  sortList state.fillStates compareNodeFillStateAsc

/-- `state->fillStateListDesc`. -/
def RebalanceState.fillStateListDesc (state : RebalanceState) : List NodeFillState :=
  sortList state.fillStates compareNodeFillStateDesc

/-! ## The placements hash -/

/-- `ShardPlacementsListToHash`: repeated placements collapse. -/
def shardPlacementsListToHash (shardPlacementList : List ShardPlacement) :
    List ShardPlacement :=
  shardPlacementList.dedup

/-- `PlacementsHashFind`. -/
def placementsHashFind (placementsHash : List ShardPlacement) (shardId node : Nat) : Bool :=
  decide (⟨shardId, node⟩ ∈ placementsHash)

/-- `PlacementsHashEnter`: a placement that is present stays once. -/
def placementsHashEnter (placementsHash : List ShardPlacement) (shardId node : Nat) :
    List ShardPlacement :=
  if ⟨shardId, node⟩ ∈ placementsHash then placementsHash
  else placementsHash ++ [⟨shardId, node⟩]

/-- `PlacementsHashRemove`. -/
def placementsHashRemove (placementsHash : List ShardPlacement) (shardId node : Nat) :
    List ShardPlacement :=
  placementsHash.erase ⟨shardId, node⟩

/-! ## Fill state updates -/

/-- Apply an update to the fill state of a node. -/
def updateFillState (fillStates : List NodeFillState) (node : Nat)
    (update : NodeFillState → NodeFillState) : List NodeFillState :=
  fillStates.map fun fillState => if fillState.node = node then update fillState else fillState

/-- Add a shard to a fill state: its cost is added and the list is re-sorted. -/
def addShardCost (shardCost : ShardCost) (fillState : NodeFillState) : NodeFillState :=
  { fillState with
    totalCost := fillState.totalCost + shardCost.cost
    shardCostListDesc := sortList (fillState.shardCostListDesc ++ [shardCost]) compareShardCostDesc }

/-- Remove a shard from a fill state (`list_delete_ptr`). -/
def removeShardCost (shardCost : ShardCost) (fillState : NodeFillState) : NodeFillState :=
  { fillState with
    totalCost := fillState.totalCost - shardCost.cost
    shardCostListDesc := fillState.shardCostListDesc.erase shardCost }

section FillStateFields

variable (shardCost : ShardCost) (fillState : NodeFillState)

@[simp] theorem addShardCost_node : (addShardCost shardCost fillState).node = fillState.node := rfl
@[simp] theorem addShardCost_capacity :
    (addShardCost shardCost fillState).capacity = fillState.capacity := rfl
@[simp] theorem addShardCost_totalCost :
    (addShardCost shardCost fillState).totalCost = fillState.totalCost + shardCost.cost := rfl
@[simp] theorem addShardCost_shardCostListDesc :
    (addShardCost shardCost fillState).shardCostListDesc =
      sortList (fillState.shardCostListDesc ++ [shardCost]) compareShardCostDesc := rfl
@[simp] theorem removeShardCost_node :
    (removeShardCost shardCost fillState).node = fillState.node := rfl
@[simp] theorem removeShardCost_capacity :
    (removeShardCost shardCost fillState).capacity = fillState.capacity := rfl
@[simp] theorem removeShardCost_totalCost :
    (removeShardCost shardCost fillState).totalCost = fillState.totalCost - shardCost.cost := rfl
@[simp] theorem removeShardCost_shardCostListDesc :
    (removeShardCost shardCost fillState).shardCostListDesc =
      fillState.shardCostListDesc.erase shardCost := rfl

end FillStateFields

/-! ## InitRebalanceState -/

/-- An empty fill state for a worker node. -/
def emptyFillState (functions : RebalancePlanFunctions) (workerNode : Nat) : NodeFillState :=
  { node := workerNode, capacity := functions.nodeCapacity workerNode, totalCost := 0,
    shardCostListDesc := [] }

/-- `FindFillStateForPlacement`. -/
def findFillStateForPlacement (state : RebalanceState) (placement : ShardPlacement) :
    Option NodeFillState :=
  state.fillStates.find? fun fillState => fillState.node == placement.nodeId

/-- One iteration of the placement loop of `InitRebalanceState`. A placement on a
node outside the worker list fails the source's assertion. -/
def addPlacement (state : RebalanceState) (placement : ShardPlacement) :
    Option RebalanceState :=
  match findFillStateForPlacement state placement with
  | none => none
  | some fillState =>
      let shardCost := state.functions.shardCostOf placement.shardId
      some { state with
        fillStates := updateFillState state.fillStates fillState.node (addShardCost shardCost)
        totalCost := state.totalCost + shardCost.cost
        disallowedPlacementList :=
          if !state.functions.shardAllowedOnNode placement.shardId fillState.node then
            state.disallowedPlacementList ++ [⟨shardCost, fillState.node⟩]
          else state.disallowedPlacementList }

/-- `InitRebalanceState`. -/
def initRebalanceState (workerNodeList : List Nat) (shardPlacementList : List ShardPlacement)
    (functions : RebalancePlanFunctions) : Option RebalanceState :=
  let placementsHash := shardPlacementsListToHash shardPlacementList
  let fillStates := workerNodeList.map (emptyFillState functions)
  let state : RebalanceState :=
    { functions, fillStates, placementsHash, placementUpdateList := [],
      disallowedPlacementList := [], totalCost := 0,
      totalCapacity := (fillStates.map NodeFillState.capacity).sum, ignoredMoves := 0 }
  placementsHash.foldlM addPlacement state

/-! ## MoveShardCost -/

/-- `MoveShardCost`: record the move, update the hash and both fill states. -/
def moveShardCost (sourceNode targetNode : Nat) (shardCost : ShardCost)
    (state : RebalanceState) : RebalanceState :=
  { state with
    placementUpdateList :=
      state.placementUpdateList ++ [⟨shardCost.shardId, sourceNode, targetNode⟩]
    placementsHash := placementsHashEnter
      (placementsHashRemove state.placementsHash shardCost.shardId sourceNode)
      shardCost.shardId targetNode
    fillStates := updateFillState
      (updateFillState state.fillStates sourceNode (removeShardCost shardCost))
      targetNode (addShardCost shardCost) }

section MoveShardCostFields

variable (sourceNode targetNode : Nat) (shardCost : ShardCost) (state : RebalanceState)

@[simp] theorem moveShardCost_functions :
    (moveShardCost sourceNode targetNode shardCost state).functions = state.functions := rfl
@[simp] theorem moveShardCost_placementUpdateList :
    (moveShardCost sourceNode targetNode shardCost state).placementUpdateList =
      state.placementUpdateList ++ [⟨shardCost.shardId, sourceNode, targetNode⟩] := rfl
@[simp] theorem moveShardCost_disallowedPlacementList :
    (moveShardCost sourceNode targetNode shardCost state).disallowedPlacementList =
      state.disallowedPlacementList := rfl

end MoveShardCostFields

/-! ## Draining disallowed placements -/

/-- `FindAllowedTargetFillState`: the emptiest node that may take the shard and
does not hold it. The source looks the placement up a second time. -/
def findAllowedTargetFillState (state : RebalanceState) (shardId : Nat) :
    Option NodeFillState :=
  state.fillStateListAsc.find? fun targetFillState =>
    let hasShard := placementsHashFind state.placementsHash shardId targetFillState.node
    !hasShard && state.functions.shardAllowedOnNode shardId targetFillState.node &&
      !placementsHashFind state.placementsHash shardId targetFillState.node

/-- One iteration of `MoveShardsAwayFromDisallowedNodes`: a shard with no allowed
target stays (the source warns). -/
def moveShardAwayFromDisallowedNode (state : RebalanceState)
    (disallowedPlacement : DisallowedPlacement) : RebalanceState :=
  match findAllowedTargetFillState state disallowedPlacement.shardCost.shardId with
  | none => state
  | some targetFillState =>
      moveShardCost disallowedPlacement.node targetFillState.node
        disallowedPlacement.shardCost state

/-- `MoveShardsAwayFromDisallowedNodes`. -/
def moveShardsAwayFromDisallowedNodes (state : RebalanceState) : RebalanceState :=
  let disallowedPlacementList :=
    sortList state.disallowedPlacementList compareDisallowedPlacementDesc
  disallowedPlacementList.foldl moveShardAwayFromDisallowedNode
    { state with disallowedPlacementList }

/-! ## FindAndMoveShardCost -/

/-- What the innermost loop of `FindAndMoveShardCost` does with one shard. -/
inductive MoveVerdict
  /-- the shard is skipped (`continue`) -/
  | skip
  /-- the move improves too little and is counted as ignored -/
  | ignore
  /-- the shard is moved and the search ends -/
  | move
  deriving DecidableEq, Repr

/-- `normalizedUtilizationImprovement`. It is only computed when the target stays
at most as utilized as the source was, where all four utilizations are finite. -/
def normalizedUtilizationImprovement
    (sourceUtilization newSourceUtilization targetUtilization newTargetUtilization :
      WithTop ℚ) : ℚ :=
  let utilizationImprovement :=
    max (sourceUtilization.untopD 0 - newTargetUtilization.untopD 0)
      (newSourceUtilization.untopD 0 - targetUtilization.untopD 0)
  let utilizationAddedByShard :=
    min (newTargetUtilization.untopD 0 - targetUtilization.untopD 0)
      (sourceUtilization.untopD 0 - newSourceUtilization.untopD 0)
  utilizationImprovement / utilizationAddedByShard

/-- The body of the shard loop of `FindAndMoveShardCost`. -/
def shardCostVerdict (state : RebalanceState) (improvementThreshold : ℚ)
    (sourceFillState targetFillState : NodeFillState) (shardCost : ShardCost) :
    MoveVerdict :=
  let targetHasShard :=
    placementsHashFind state.placementsHash shardCost.shardId targetFillState.node
  let newTargetUtilization :=
    calculateUtilization (targetFillState.totalCost + shardCost.cost) targetFillState.capacity
  let newSourceUtilization :=
    calculateUtilization (sourceFillState.totalCost - shardCost.cost) sourceFillState.capacity
  if targetHasShard then .skip
  else if !state.functions.shardAllowedOnNode shardCost.shardId targetFillState.node then .skip
  else if newTargetUtilization ≤ newSourceUtilization then .move
  else if newTargetUtilization > sourceFillState.utilization then .skip
  else if newTargetUtilization = sourceFillState.utilization ∧
      newSourceUtilization ≤ targetFillState.utilization then .skip
  else if normalizedUtilizationImprovement sourceFillState.utilization newSourceUtilization
      targetFillState.utilization newTargetUtilization < improvementThreshold then .ignore
  else .move

/-- The shard loop: the number of ignored moves and the shard to move. -/
def shardCostLoop (state : RebalanceState) (improvementThreshold : ℚ)
    (sourceFillState targetFillState : NodeFillState) :
    List ShardCost → Nat × Option ShardCost
  | [] => (0, none)
  | shardCost :: rest =>
      match shardCostVerdict state improvementThreshold sourceFillState targetFillState
          shardCost with
      | .move => (0, some shardCost)
      | .skip => shardCostLoop state improvementThreshold sourceFillState targetFillState rest
      | .ignore =>
          let result :=
            shardCostLoop state improvementThreshold sourceFillState targetFillState rest
          (result.1 + 1, result.2)

/-- The target loop over `fillStateListAsc`; both guards end it (`break`). -/
def targetLoop (state : RebalanceState) (utilizationLowerBound utilizationUpperBound
    improvementThreshold : ℚ) (sourceFillState : NodeFillState) :
    List NodeFillState → Nat × Option (NodeFillState × ShardCost)
  | [] => (0, none)
  | targetFillState :: rest =>
      if targetFillState.utilization ≥ utilizationUpperBound then (0, none)
      else if targetFillState.utilization ≥ utilizationLowerBound ∧
          sourceFillState.utilization ≤ utilizationUpperBound then (0, none)
      else
        let result := shardCostLoop state improvementThreshold sourceFillState
          targetFillState sourceFillState.shardCostListDesc
        match result.2 with
        | some shardCost => (result.1, some (targetFillState, shardCost))
        | none =>
            let next := targetLoop state utilizationLowerBound utilizationUpperBound
              improvementThreshold sourceFillState rest
            (result.1 + next.1, next.2)

/-- The source loop over `fillStateListDesc`; its guard ends the whole search. -/
def sourceLoop (state : RebalanceState) (utilizationLowerBound utilizationUpperBound
    improvementThreshold : ℚ) :
    List NodeFillState → Nat × Option (NodeFillState × NodeFillState × ShardCost)
  | [] => (0, none)
  | sourceFillState :: rest =>
      if sourceFillState.utilization ≤ utilizationLowerBound then (0, none)
      else
        let result := targetLoop state utilizationLowerBound utilizationUpperBound
          improvementThreshold sourceFillState state.fillStateListAsc
        match result.2 with
        | some (targetFillState, shardCost) =>
            (result.1, some (sourceFillState, targetFillState, shardCost))
        | none =>
            let next := sourceLoop state utilizationLowerBound utilizationUpperBound
              improvementThreshold rest
            (result.1 + next.1, next.2)

/-- `FindAndMoveShardCost`: whether a move was made, and the new state. -/
def findAndMoveShardCost (utilizationLowerBound utilizationUpperBound
    improvementThreshold : ℚ) (state : RebalanceState) : Bool × RebalanceState :=
  let result := sourceLoop state utilizationLowerBound utilizationUpperBound
    improvementThreshold state.fillStateListDesc
  let state := { state with ignoredMoves := state.ignoredMoves + result.1 }
  match result.2 with
  | none => (false, state)
  | some (sourceFillState, targetFillState, shardCost) =>
      (true, moveShardCost sourceFillState.node targetFillState.node shardCost state)

/-! ## RebalancePlacementUpdates -/

/-- The balancing loop of one state: it runs while fewer than `maxShardMoves` moves
are planned and the last search found a move. Each round makes one call, so
`maxShardMoves + 1` rounds of fuel are enough (`balanceLoop_fuel` below). -/
def balanceLoop (utilizationLowerBound utilizationUpperBound improvementThreshold : ℚ)
    (maxShardMoves : Int) : Nat → RebalanceState → Bool → RebalanceState × Bool
  | 0, state, moreMovesAvailable => (state, moreMovesAvailable)
  | fuel + 1, state, moreMovesAvailable =>
      if (state.placementUpdateList.length : Int) < maxShardMoves ∧ moreMovesAvailable then
        let result := findAndMoveShardCost utilizationLowerBound utilizationUpperBound
          improvementThreshold state
        balanceLoop utilizationLowerBound utilizationUpperBound improvementThreshold
          maxShardMoves fuel result.2 result.1
      else (state, moreMovesAvailable)

/-- The drain phase: each state continues the shared list of moves. -/
def drainRebalanceStates : List RebalanceState → List PlacementUpdateEvent →
    List RebalanceState × List PlacementUpdateEvent
  | [], placementUpdateList => ([], placementUpdateList)
  | state :: rest, placementUpdateList =>
      let state := moveShardsAwayFromDisallowedNodes { state with placementUpdateList }
      let result := drainRebalanceStates rest state.placementUpdateList
      (state :: result.1, result.2)

/-- The balance bounds of a state: the average utilization widened by the
threshold on both sides. -/
def utilizationBounds (threshold : ℚ) (state : RebalanceState) : ℚ × ℚ :=
  let averageUtilization := state.totalCost / state.totalCapacity
  ((1 - threshold) * averageUtilization, (1 + threshold) * averageUtilization)

/-- The balance phase: a state that still had moves when the budget ran out ends
the phase (the source's notice and `break`). -/
def balanceRebalanceStates (threshold : ℚ) (maxShardMoves : Int) (improvementThreshold : ℚ) :
    List RebalanceState → List PlacementUpdateEvent → List PlacementUpdateEvent
  | [], placementUpdateList => placementUpdateList
  | state :: rest, placementUpdateList =>
      let state := { state with placementUpdateList }
      let bounds := utilizationBounds threshold state
      let result := balanceLoop bounds.1 bounds.2 improvementThreshold maxShardMoves
        (maxShardMoves.toNat + 1) state true
      if result.2 then result.1.placementUpdateList
      else balanceRebalanceStates threshold maxShardMoves improvementThreshold rest
        result.1.placementUpdateList

/-- `RebalancePlacementUpdates`. -/
def rebalancePlacementUpdates (workerNodeList : List Nat)
    (activeShardPlacementListList : List (List ShardPlacement)) (threshold : ℚ)
    (maxShardMoves : Int) (drainOnly : Bool) (improvementThreshold : ℚ)
    (functions : RebalancePlanFunctions) : Option (List PlacementUpdateEvent) := do
  let rebalanceStates ← activeShardPlacementListList.mapM fun shardPlacementList =>
    initRebalanceState workerNodeList shardPlacementList functions
  let drained := drainRebalanceStates rebalanceStates []
  if drainOnly then
    pure drained.2
  else
    pure (balanceRebalanceStates threshold maxShardMoves improvementThreshold drained.1
      drained.2)

end Citus.Rebalancer
