import Citus.Rebalancer.Placement
import Mathlib

/-!
# What a rebalance state keeps

A rebalance state describes its colocation group twice: the placements hash says
which node holds which shard, and the fill state of each node lists the costs of
its shards with their total. `Consistent` says that the two agree: every shard a
fill state lists is a placement of the hash on that node, no node lists a shard
twice, every listed cost is the strategy's cost of the shard, and each total is
the sum of the listed costs.

`MoveShardCost` keeps `Consistent` when it moves a shard that the source lists to
a node that does not hold it (`consistent_moveShardCost`). Both phases of the
planner only make such moves, so each keeps the invariant; and every move they
record is executable, in order, on the placements the state started from
(`Replays`). The first fact is what the executability of the whole plan rests on;
the invariant's totals are what the termination argument measures.
-/

namespace Citus.Rebalancer

/-! ## Sorting and the fill state lists -/

theorem sortList_perm {α : Type} (list : List α) (comparator : α → α → Ordering) :
    (sortList list comparator).Perm list :=
  List.perm_insertionSort _ list

@[simp] theorem mem_sortList {α : Type} {a : α} {list : List α}
    {comparator : α → α → Ordering} : a ∈ sortList list comparator ↔ a ∈ list :=
  (sortList_perm list comparator).mem_iff

@[simp] theorem mem_fillStateListAsc {state : RebalanceState} {fillState : NodeFillState} :
    fillState ∈ state.fillStateListAsc ↔ fillState ∈ state.fillStates :=
  mem_sortList

@[simp] theorem mem_fillStateListDesc {state : RebalanceState} {fillState : NodeFillState} :
    fillState ∈ state.fillStateListDesc ↔ fillState ∈ state.fillStates :=
  mem_sortList

theorem mem_updateFillState {fillStates : List NodeFillState} {node : Nat}
    {update : NodeFillState → NodeFillState} {fillState' : NodeFillState} :
    fillState' ∈ updateFillState fillStates node update ↔
      ∃ fillState ∈ fillStates,
        (if fillState.node = node then update fillState else fillState) = fillState' :=
  List.mem_map

theorem updateFillState_nodes {fillStates : List NodeFillState} {node : Nat}
    {update : NodeFillState → NodeFillState} (hnode : ∀ f, (update f).node = f.node) :
    (updateFillState fillStates node update).map NodeFillState.node =
      fillStates.map NodeFillState.node := by
  simp only [updateFillState, List.map_map]
  refine List.map_congr_left fun f _ => ?_
  by_cases h : f.node = node <;> simp [h, hnode]

/-! ## Consistent fill states -/

/-- A fill state agrees with the placements hash and with the strategy's costs. -/
structure FillStateConsistent (functions : RebalancePlanFunctions)
    (placementsHash : List ShardPlacement) (fillState : NodeFillState) : Prop where
  placed : ∀ shardCost ∈ fillState.shardCostListDesc,
    ⟨shardCost.shardId, fillState.node⟩ ∈ placementsHash
  shardIds_nodup : (fillState.shardCostListDesc.map ShardCost.shardId).Nodup
  shardCost_eq : ∀ shardCost ∈ fillState.shardCostListDesc,
    shardCost = functions.shardCostOf shardCost.shardId
  totalCost_eq : fillState.totalCost = (fillState.shardCostListDesc.map ShardCost.cost).sum

namespace FillStateConsistent

variable {functions : RebalancePlanFunctions} {placementsHash placementsHash' : List ShardPlacement}
  {fillState : NodeFillState} {shardCost shardCost' : ShardCost}

/-- A shard cost is determined by its shard. -/
theorem eq_of_shardId_eq (h : FillStateConsistent functions placementsHash fillState)
    (hmem : shardCost' ∈ fillState.shardCostListDesc)
    (hcost : shardCost = functions.shardCostOf shardCost.shardId)
    (hid : shardCost'.shardId = shardCost.shardId) : shardCost' = shardCost := by
  rw [h.shardCost_eq _ hmem, hid, ← hcost]

/-- A fill state stays consistent with a hash that keeps the placements of its node. -/
theorem mono (h : FillStateConsistent functions placementsHash fillState)
    (hkeep : ∀ x ∈ placementsHash, x.nodeId = fillState.node → x ∈ placementsHash') :
    FillStateConsistent functions placementsHash' fillState where
  placed shardCost hmem := hkeep _ (h.placed shardCost hmem) rfl
  shardIds_nodup := h.shardIds_nodup
  shardCost_eq := h.shardCost_eq
  totalCost_eq := h.totalCost_eq

/-- Removing a listed shard keeps a fill state consistent with a hash that keeps
the node's other placements. -/
theorem removeShardCost (h : FillStateConsistent functions placementsHash fillState)
    (hmem : shardCost ∈ fillState.shardCostListDesc)
    (hkeep : ∀ x ∈ placementsHash, x.nodeId = fillState.node →
      x.shardId ≠ shardCost.shardId → x ∈ placementsHash') :
    FillStateConsistent functions placementsHash' (removeShardCost shardCost fillState) where
  placed shardCost' hmem' := by
    have hnodup : fillState.shardCostListDesc.Nodup := h.shardIds_nodup.of_map _
    rw [removeShardCost_shardCostListDesc, hnodup.mem_erase_iff] at hmem'
    -- the node lists the removed shard once, so the shards left have other ids
    have hid : shardCost'.shardId ≠ shardCost.shardId := fun hid =>
      hmem'.1 (h.eq_of_shardId_eq hmem'.2 (h.shardCost_eq shardCost hmem) hid)
    exact hkeep _ (h.placed shardCost' hmem'.2) rfl hid
  shardIds_nodup := h.shardIds_nodup.sublist (List.erase_sublist.map _)
  shardCost_eq shardCost' hmem' := h.shardCost_eq shardCost' (List.mem_of_mem_erase hmem')
  totalCost_eq := by
    have hsum := ((List.perm_cons_erase hmem).map ShardCost.cost).sum_eq
    rw [List.map_cons, List.sum_cons] at hsum
    rw [removeShardCost_totalCost, removeShardCost_shardCostListDesc, h.totalCost_eq, hsum]
    ring

/-- Adding a shard the node does not hold keeps a fill state consistent with a
hash that gains the new placement. -/
theorem addShardCost (h : FillStateConsistent functions placementsHash fillState)
    (hcost : shardCost = functions.shardCostOf shardCost.shardId)
    (hfree : ⟨shardCost.shardId, fillState.node⟩ ∉ placementsHash)
    (hkeep : ∀ x ∈ placementsHash, x.nodeId = fillState.node → x ∈ placementsHash')
    (hnew : ⟨shardCost.shardId, fillState.node⟩ ∈ placementsHash') :
    FillStateConsistent functions placementsHash' (addShardCost shardCost fillState) where
  placed shardCost' hmem' := by
    rw [addShardCost_shardCostListDesc, mem_sortList, List.mem_append,
      List.mem_singleton] at hmem'
    rcases hmem' with hmem' | rfl
    · exact hkeep _ (h.placed shardCost' hmem') rfl
    · exact hnew
  shardIds_nodup := by
    rw [addShardCost_shardCostListDesc, ((sortList_perm _ _).map _).nodup_iff, List.map_append,
      List.nodup_append]
    refine ⟨h.shardIds_nodup, List.nodup_singleton _, ?_⟩
    -- a listed shard with the new shard's id would already be in the hash
    intro a ha b hb hab
    obtain ⟨shardCost', hmem', rfl⟩ := List.mem_map.mp ha
    rw [List.map_singleton, List.mem_singleton] at hb
    subst hb
    exact hfree (hab ▸ h.placed shardCost' hmem')
  shardCost_eq shardCost' hmem' := by
    rw [addShardCost_shardCostListDesc, mem_sortList, List.mem_append,
      List.mem_singleton] at hmem'
    rcases hmem' with hmem' | rfl
    · exact h.shardCost_eq shardCost' hmem'
    · exact hcost
  totalCost_eq := by
    rw [addShardCost_totalCost, addShardCost_shardCostListDesc,
      ((sortList_perm _ _).map _).sum_eq, List.map_append, List.sum_append, h.totalCost_eq]
    simp

end FillStateConsistent

/-! ## Consistent states -/

/-- The invariant of a rebalance state. -/
structure Consistent (state : RebalanceState) : Prop where
  nodes_nodup : (state.fillStates.map NodeFillState.node).Nodup
  hash_nodup : state.placementsHash.Nodup
  fillState : ∀ fillState ∈ state.fillStates,
    FillStateConsistent state.functions state.placementsHash fillState

variable {state state' : RebalanceState}

/-- Only the strategy, the fill states and the hash matter to the invariant. -/
theorem Consistent.of_eq (h : Consistent state) (hfunctions : state'.functions = state.functions)
    (hfillStates : state'.fillStates = state.fillStates)
    (hhash : state'.placementsHash = state.placementsHash) : Consistent state' where
  nodes_nodup := hfillStates ▸ h.nodes_nodup
  hash_nodup := hhash ▸ h.hash_nodup
  fillState := by
    rw [hfunctions, hfillStates, hhash]
    exact h.fillState

/-- Two fill states of a consistent state with the same node are the same. -/
theorem Consistent.eq_of_node_eq (h : Consistent state) {f g : NodeFillState}
    (hf : f ∈ state.fillStates) (hg : g ∈ state.fillStates) (hnode : f.node = g.node) : f = g :=
  List.inj_on_of_nodup_map h.nodes_nodup hf hg hnode

/-! ## MoveShardCost -/

/-- The fill state of a node after `MoveShardCost`. -/
def movedFillState (sourceNode targetNode : Nat) (shardCost : ShardCost)
    (fillState : NodeFillState) : NodeFillState :=
  if fillState.node = sourceNode then removeShardCost shardCost fillState
  else if fillState.node = targetNode then addShardCost shardCost fillState
  else fillState

variable {sourceNode targetNode : Nat} {shardCost : ShardCost}

@[simp] theorem movedFillState_node (fillState : NodeFillState) :
    (movedFillState sourceNode targetNode shardCost fillState).node = fillState.node := by
  unfold movedFillState
  split_ifs <;> rfl

@[simp] theorem movedFillState_capacity (fillState : NodeFillState) :
    (movedFillState sourceNode targetNode shardCost fillState).capacity = fillState.capacity := by
  unfold movedFillState
  split_ifs <;> rfl

theorem moveShardCost_fillStates (hne : sourceNode ≠ targetNode) :
    (moveShardCost sourceNode targetNode shardCost state).fillStates =
      state.fillStates.map (movedFillState sourceNode targetNode shardCost) := by
  simp only [moveShardCost, updateFillState, List.map_map]
  refine List.map_congr_left fun f _ => ?_
  by_cases hs : f.node = sourceNode
  · have ht : f.node ≠ targetNode := hs ▸ hne
    simp [movedFillState, hs, hne]
  · by_cases ht : f.node = targetNode <;> simp [movedFillState, hs, ht, hne.symm]

theorem moveShardCost_placementsHash
    (htarget : ⟨shardCost.shardId, targetNode⟩ ∉ state.placementsHash) :
    (moveShardCost sourceNode targetNode shardCost state).placementsHash =
      state.placementsHash.erase ⟨shardCost.shardId, sourceNode⟩ ++
        [⟨shardCost.shardId, targetNode⟩] := by
  have hfree : ⟨shardCost.shardId, targetNode⟩ ∉
      state.placementsHash.erase ⟨shardCost.shardId, sourceNode⟩ :=
    fun hmem => htarget (List.mem_of_mem_erase hmem)
  simp only [moveShardCost, placementsHashEnter, placementsHashRemove]
  exact if_neg hfree

/-- `MoveShardCost` keeps the invariant when the source lists the shard and the
target does not hold it. -/
theorem consistent_moveShardCost (h : Consistent state)
    (hsource : ∃ f ∈ state.fillStates, f.node = sourceNode ∧ shardCost ∈ f.shardCostListDesc)
    (htarget : ⟨shardCost.shardId, targetNode⟩ ∉ state.placementsHash) :
    Consistent (moveShardCost sourceNode targetNode shardCost state) := by
  obtain ⟨fs, hfs, rfl, hmem⟩ := hsource
  have hplaced : ⟨shardCost.shardId, fs.node⟩ ∈ state.placementsHash :=
    (h.fillState fs hfs).placed shardCost hmem
  have hne : fs.node ≠ targetNode := fun he => htarget (he ▸ hplaced)
  have hcost := (h.fillState fs hfs).shardCost_eq shardCost hmem
  -- the new hash keeps every placement but the moved one
  have hkeep : ∀ x ∈ state.placementsHash, x ≠ ⟨shardCost.shardId, fs.node⟩ →
      x ∈ state.placementsHash.erase ⟨shardCost.shardId, fs.node⟩ ++
        [⟨shardCost.shardId, targetNode⟩] :=
    fun x hx hxne => List.mem_append_left _ ((List.mem_erase_of_ne hxne).mpr hx)
  refine ⟨?_, ?_, ?_⟩
  · rw [moveShardCost_fillStates hne, List.map_map]
    convert h.nodes_nodup using 1
    exact List.map_congr_left fun f _ => movedFillState_node f
  · rw [moveShardCost_placementsHash htarget, List.nodup_append]
    refine ⟨h.hash_nodup.erase _, List.nodup_singleton _, ?_⟩
    intro a ha b hb hab
    rw [List.mem_singleton.mp hb] at hab
    exact htarget (hab ▸ List.mem_of_mem_erase ha)
  · rw [moveShardCost_fillStates hne, moveShardCost_placementsHash htarget,
      moveShardCost_functions]
    intro f' hf'
    obtain ⟨f, hf, rfl⟩ := List.mem_map.mp hf'
    have hfc := h.fillState f hf
    -- a placement on another node than the source is not the moved one
    have hother : ∀ x : ShardPlacement, x.nodeId = f.node → f.node ≠ fs.node →
        x ≠ ⟨shardCost.shardId, fs.node⟩ :=
      fun x hx hfne hxe => hfne (hx.symm.trans (congrArg ShardPlacement.nodeId hxe))
    unfold movedFillState
    split_ifs with hsrc htgt
    · -- the source: it is `fs`, since nodes are distinct
      obtain rfl := h.eq_of_node_eq hf hfs hsrc
      refine hfc.removeShardCost hmem fun x hx _ hxid => hkeep x hx fun hxe => ?_
      exact hxid (congrArg ShardPlacement.shardId hxe)
    · refine hfc.addShardCost hcost (htgt ▸ htarget)
        (fun x hx hxn => hkeep x hx (hother x hxn hsrc)) ?_
      rw [htgt]
      exact List.mem_append_right _ (List.mem_singleton_self _)
    · exact hfc.mono fun x hx hxn => hkeep x hx (hother x hxn hsrc)

/-! ## Replaying the recorded moves -/

/-- `state'` continues `state`: it extends the list of moves by moves that are
executable, in order, on the placements of `state`, and that lead to the
placements of `state'`. -/
def Replays (state state' : RebalanceState) : Prop :=
  state'.functions = state.functions ∧
    ∃ events, state'.placementUpdateList = state.placementUpdateList ++ events ∧
      applyPlacementUpdates state.functions.shardAllowedOnNode state.placementsHash events =
        some state'.placementsHash

theorem Replays.of_eq (hfunctions : state'.functions = state.functions)
    (hlist : state'.placementUpdateList = state.placementUpdateList)
    (hhash : state'.placementsHash = state.placementsHash) : Replays state state' :=
  ⟨hfunctions, [], by rw [hlist, List.append_nil], by rw [hhash]; rfl⟩

theorem Replays.trans {state'' : RebalanceState} (h : Replays state state')
    (h' : Replays state' state'') : Replays state state'' := by
  obtain ⟨hf, events, hlist, happly⟩ := h
  obtain ⟨hf', events', hlist', happly'⟩ := h'
  refine ⟨hf'.trans hf, events ++ events', by rw [hlist', hlist, List.append_assoc], ?_⟩
  rw [applyPlacementUpdates_append happly, ← hf]
  exact happly'

/-- A move from a node holding the shard to an allowed node that does not hold it
replays. -/
theorem replays_moveShardCost
    (hsource : ⟨shardCost.shardId, sourceNode⟩ ∈ state.placementsHash)
    (htarget : ⟨shardCost.shardId, targetNode⟩ ∉ state.placementsHash)
    (hallowed : state.functions.shardAllowedOnNode shardCost.shardId targetNode = true) :
    Replays state (moveShardCost sourceNode targetNode shardCost state) := by
  refine ⟨rfl, [⟨shardCost.shardId, sourceNode, targetNode⟩], rfl, ?_⟩
  have hstep : applyPlacementUpdate state.functions.shardAllowedOnNode state.placementsHash
      ⟨shardCost.shardId, sourceNode, targetNode⟩ =
        some (state.placementsHash.erase ⟨shardCost.shardId, sourceNode⟩ ++
          [⟨shardCost.shardId, targetNode⟩]) :=
    applyPlacementUpdate_eq_some.mpr ⟨hsource, htarget, hallowed, rfl⟩
  rw [applyPlacementUpdates_cons, moveShardCost_placementsHash htarget, hstep]
  rfl

/-- The one-step summary both phases use: a move of a listed shard to an allowed
node that does not hold it keeps the invariant and replays. -/
theorem consistent_replays_moveShardCost (h : Consistent state)
    (hsource : ∃ f ∈ state.fillStates, f.node = sourceNode ∧ shardCost ∈ f.shardCostListDesc)
    (htarget : ⟨shardCost.shardId, targetNode⟩ ∉ state.placementsHash)
    (hallowed : state.functions.shardAllowedOnNode shardCost.shardId targetNode = true) :
    Consistent (moveShardCost sourceNode targetNode shardCost state) ∧
      Replays state (moveShardCost sourceNode targetNode shardCost state) := by
  refine ⟨consistent_moveShardCost h hsource htarget, replays_moveShardCost ?_ htarget hallowed⟩
  obtain ⟨f, hf, rfl, hmem⟩ := hsource
  exact (h.fillState f hf).placed shardCost hmem

end Citus.Rebalancer
